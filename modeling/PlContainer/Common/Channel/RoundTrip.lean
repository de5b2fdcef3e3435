import PlContainer.Common.Channel.Values

set_option autoImplicit false

/-! # The wire codec round trip

Types, arguments and messages transfer from `plcontainer_channel_send` to
`plcontainer_channel_receive`: the receiver gets the message back from exactly the bytes sent and
leaves what follows them unread. The receiver holds arrays in another form than the sender, so the
round trip is stated with both: the message as it is delivered, and the message read back from it. -/

namespace PlContainer

open ByteStream

/-! ## Types -/

theorem sendSubTypes_eq_writeN (n : ℕ) (ts : List PlcType) :
    sendSubTypes n ts = writeN sendType n ts := by
  induction n generalizing ts with
  | zero => cases ts <;> rfl
  | succ n ih =>
      cases ts with
      | nil => rfl
      | cons t ts => rw [sendSubTypes, writeN, ih]

theorem subTypes_eq_nil {type : PlcDatatype} {subTypes : List PlcType}
    (hsub : type.hasSubTypes = false) (h : subTypesOk type subTypes = true) : subTypes = [] := by
  cases type <;> simp_all [PlcDatatype.hasSubTypes, subTypesOk]

/-- One type, given that its subtypes transfer under the bound of the recursion. -/
theorem transfers_type_step {type : PlcDatatype} {typeName : Option CString} {n : BitVec 16}
    {subTypes : List PlcType} (h : (PlcType.mk type typeName n subTypes).wellFormed = true)
    {fuel : ℕ} (hsubs : ∀ s ∈ subTypes, Transfers (sendType s) (receiveTypeAux fuel) s) :
    Transfers (sendType (.mk type typeName n subTypes)) (receiveTypeAux (fuel + 1))
      (.mk type typeName n subTypes) := by
  simp only [PlcType.wellFormed, Bool.and_eq_true, decide_eq_true_eq] at h
  obtain ⟨⟨⟨⟨hcanon, hname⟩, hcount⟩, hshape⟩, _⟩ := h
  rw [sendType, receiveTypeAux]
  refine Transfers.cons (transfers_sendChar type.code) ?_
  refine Transfers.cons (transfers_sendCstring hname) ?_
  simp only [PlcDatatype.ofCode_code type hcanon, emit_singleton]
  by_cases hsub : type.hasSubTypes = true
  · rw [if_pos hsub, if_pos hsub]
    refine Transfers.cons (transfers_sendInt16 n) ?_
    rw [emit_singleton, sendSubTypes_eq_writeN, hcount, Int.toNat_natCast]
    have hlist := transfers_writeN sendType (receiveTypeAux fuel) id subTypes hsubs
    rw [List.map_id] at hlist
    exact hlist.map (PlcType.mk type typeName n)
  · rw [if_neg hsub, if_neg hsub]
    have hnil : subTypes = [] := subTypes_eq_nil (by simpa using hsub) hshape
    have hzero : n = 0 := BitVec.eq_of_toInt_eq (by rw [hcount, hnil]; rfl)
    rw [hnil, hzero]
    exact Transfers.nil _

/-- The subtypes of a type take fewer bytes than the type. -/
theorem length_subTypes_lt {type : PlcDatatype} {typeName : Option CString} {n : BitVec 16}
    {subTypes : List PlcType} {bs cs : List UInt8}
    (h : sendType (.mk type typeName n subTypes) = some bs)
    (hcount : n.toInt = subTypes.length) (hshape : subTypesOk type subTypes = true)
    (hcs : writeN sendType subTypes.length subTypes = some cs) : cs.length < bs.length := by
  rw [sendType] at h
  obtain ⟨b₁, r₁, h₁, hr₁, rfl⟩ := emit_cons_eq_some h
  obtain ⟨b₂, r₂, _, hr₂, rfl⟩ := emit_cons_eq_some hr₁
  rw [emit_singleton] at hr₂
  cases h₁
  simp only [List.length_append, List.length_cons, List.length_nil]
  by_cases hsub : type.hasSubTypes = true
  · rw [if_pos hsub] at hr₂
    obtain ⟨b₃, r₃, _, hr₃, rfl⟩ := emit_cons_eq_some hr₂
    rw [emit_singleton, sendSubTypes_eq_writeN, hcount, Int.toNat_natCast, hcs] at hr₃
    cases hr₃
    rw [List.length_append]
    omega
  · have hnil : subTypes = [] := subTypes_eq_nil (by simpa using hsub) hshape
    rw [hnil] at hcs
    cases hcs
    rw [List.length_nil]
    omega

/-- A type is read back under every bound that its encoding does not exceed. -/
theorem reads_sendType (t : PlcType) (ht : t.wellFormed = true) :
    ∃ bs, sendType t = some bs ∧ ∀ fuel, bs.length ≤ fuel → Reads (receiveTypeAux fuel) bs t := by
  induction t using PlcType.induct with
  | mk type typeName nSubTypes subTypes ih =>
      have hparts := ht
      simp only [PlcType.wellFormed, Bool.and_eq_true, decide_eq_true_eq] at hparts
      obtain ⟨⟨⟨_, hcount⟩, hshape⟩, hsubs⟩ := hparts
      rw [allWellFormed_iff] at hsubs
      have hsend : ∀ s ∈ subTypes, ∃ b, sendType s = some b := fun s hs =>
        (ih s hs (hsubs s hs)).imp fun _ hb => hb.1
      obtain ⟨cs, hcs⟩ := writeN_eq_some hsend
      have hstep : ∀ fuel, cs.length ≤ fuel →
          Transfers (sendType (.mk type typeName nSubTypes subTypes)) (receiveTypeAux (fuel + 1))
            (.mk type typeName nSubTypes subTypes) := by
        intro fuel hfuel
        refine transfers_type_step ht fun s hs => ?_
        obtain ⟨b, hb, hread⟩ := ih s hs (hsubs s hs)
        exact ⟨b, hb, hread fuel (le_trans (length_le_of_writeN hcs s hs b hb) hfuel)⟩
      obtain ⟨bs, hbs, _⟩ := hstep cs.length (le_refl _)
      refine ⟨bs, hbs, fun fuel hfuel => ?_⟩
      have hlt := length_subTypes_lt hbs hcount hshape hcs
      obtain ⟨k, rfl⟩ : ∃ k, fuel = k + 1 := ⟨fuel - 1, by omega⟩
      obtain ⟨bs', hbs', hread⟩ := hstep k (by omega)
      rw [hbs] at hbs'
      cases hbs'
      exact hread

theorem transfers_sendType {t : PlcType} (ht : t.wellFormed = true) :
    Transfers (sendType t) receiveType t := by
  obtain ⟨bs, hbs, hread⟩ := reads_sendType t ht
  refine ⟨bs, hbs, fun s => ?_⟩
  have hlen : bs.length ≤ (bs ++ s).length + 1 := by
    rw [List.length_append]
    omega
  exact hread _ hlen s

/-! ### The bound on the recursion is never reached -/

theorem safeBelow_receiveBits (n w k : ℕ) :
    SafeBelow ChannelError.outOfFuel n (receiveBits w k) :=
  (SafeBelow.readBytes (by simp) n k).bind fun _ => SafeBelow.pure _ n _

theorem safeBelow_pmalloc (n : ℕ) (size : ℤ) :
    SafeBelow ChannelError.outOfFuel n (pmalloc size) := by
  unfold pmalloc
  split
  · exact SafeBelow.pure _ n ()
  · exact SafeBelow.throw (by simp) n

theorem safeBelow_receiveCstring (n : ℕ) :
    SafeBelow ChannelError.outOfFuel n receiveCstring := by
  refine (safeBelow_receiveBits n 32 4).bind fun cnt => ?_
  split
  · exact SafeBelow.pure _ n none
  · split
    · exact SafeBelow.throw (by simp) n
    · refine (safeBelow_pmalloc n _).bind fun _ => ?_
      exact (SafeBelow.readBytes (by simp) n _).bind fun s => SafeBelow.pure _ n (some s)

theorem safeBelow_receiveTypeAux (fuel : ℕ) :
    SafeBelow ChannelError.outOfFuel fuel (receiveTypeAux fuel) := by
  induction fuel with
  | zero => exact fun s hs => absurd hs (Nat.not_lt_zero _)
  | succ fuel ih =>
      rw [receiveTypeAux, receiveChar, bind_assoc]
      -- the type code is gone when the subtypes are read, so the smaller bound is enough for them
      refine SafeBelow.step (by simp) fun bs => ?_
      rw [pure_bind]
      refine (safeBelow_receiveCstring fuel).bind fun typeName => ?_
      dsimp only
      split
      · refine (safeBelow_receiveBits fuel 16 2).bind fun n => ?_
        exact (ih.readN _).bind fun subTypes => SafeBelow.pure _ fuel _
      · exact SafeBelow.pure _ fuel _

/-- `receive_type` needs no bound of its own: the bytes at hand always suffice. -/
theorem receiveType_ne_outOfFuel (s : List UInt8) : receiveType.run s ≠ .error .outOfFuel :=
  (safeBelow_receiveTypeAux (s.length + 1) s (Nat.lt_succ_self _)).1

/-! ## Arguments, columns and rows -/

theorem transfers_sendArgument {arg : PlcArgument} (h : arg.wellFormed = true) :
    Transfers (sendArgument arg) receiveArgument (arg.mapData Value.deliveredRaw) := by
  simp only [PlcArgument.wellFormed, Bool.and_eq_true] at h
  obtain ⟨⟨hname, htype⟩, hdata⟩ := h
  refine Transfers.cons (transfers_sendCstring hname) ?_
  refine Transfers.cons (transfers_sendType htype) ?_
  rw [emit_singleton]
  exact (transfers_sendRawObject arg.type htype arg.data hdata).map (PlcArgument.mk arg.type arg.name)

theorem transfers_arguments {nargs : BitVec 32} {args : List PlcArgument}
    (h : argumentsOk nargs args = true) :
    Transfers (writeN sendArgument nargs.toInt.toNat args) (receiveArguments nargs)
      (args.map (PlcArgument.mapData Value.deliveredRaw)) := by
  simp only [argumentsOk, Bool.and_eq_true, decide_eq_true_eq, List.all_eq_true] at h
  obtain ⟨hcount, hargs⟩ := h
  have hnonneg : ¬ nargs.toInt < 0 := by omega
  rw [receiveArguments, if_neg hnonneg, hcount, Int.toNat_natCast]
  exact transfers_writeN _ _ _ args fun arg harg => transfers_sendArgument (hargs arg harg)

theorem transfers_sendColumn {col : PlcType × Option CString} (htype : col.1.wellFormed = true)
    (hname : cstringOk col.2 = true) : Transfers (sendColumn col) receiveColumn col := by
  refine Transfers.cons (transfers_sendType htype) ?_
  rw [emit_singleton]
  exact (transfers_sendCstring hname).map (Prod.mk col.1)

/-- All columns of a result, from the two arrays that describe them. -/
theorem transfers_columns {types : List PlcType} {names : List (Option CString)}
    (hlen : names.length = types.length) (htypes : ∀ t ∈ types, t.wellFormed = true)
    (hnames : ∀ n ∈ names, cstringOk n = true) :
    Transfers (writeN sendColumn types.length (types.zip names)) (readN receiveColumn types.length)
      (types.zip names) := by
  have hzip : (types.zip names).length = types.length := by
    rw [List.length_zip, hlen, Nat.min_self]
  have h := transfers_writeN sendColumn receiveColumn id (types.zip names) fun col hcol => by
    obtain ⟨htype, hname⟩ := List.of_mem_zip hcol
    exact transfers_sendColumn (htypes _ htype) (hnames _ hname)
  rw [List.map_id, hzip] at h
  exact h

theorem transfers_sendRow (types : List PlcType) (htypes : ∀ t ∈ types, t.wellFormed = true) :
    ∀ row, fieldsMatch types row = true →
      Transfers (sendRow types.length types row) (receiveRow types)
        (row.map Value.deliveredRaw) := by
  induction types with
  | nil =>
      intro row hrow
      cases row with
      | nil => exact Transfers.nil []
      | cons d ds => simp [fieldsMatch] at hrow
  | cons t ts ih =>
      intro row hrow
      cases row with
      | nil => simp [fieldsMatch] at hrow
      | cons d ds =>
          simp only [fieldsMatch, Bool.and_eq_true] at hrow
          have hd := transfers_sendRawObject t (htypes t (List.mem_cons_self ..)) d hrow.1
          have hrest := ih (fun s hs => htypes s (List.mem_cons_of_mem _ hs)) ds hrow.2
          refine Transfers.cons hd ?_
          rw [emit_singleton]
          exact hrest.map (Value.deliveredRaw d :: ·)

/-! ## Messages -/

theorem transfers_end {α : Type} (a : α) :
    Transfers (emit [messageEnd]) (pure a : Receive α) a :=
  Transfers.nil a

theorem emit_messageEnd (w : Writer) : emit [w, messageEnd] = w := by
  cases w <;> simp [emit, messageEnd]

/-- The letter leads to the receiver of the message's body when the mask allows the type. -/
theorem transfers_message {t : MsgType} {mask : BitVec 64} {ws : List Writer} {m : PlcMessage}
    (hmask : t.allowedBy mask = true) (h : Transfers (emit ws) (receiveBody t) m) :
    Transfers (emit (messageStart t :: ws)) (plcontainerChannelReceive mask) m := by
  refine Transfers.cons (transfers_sendChar t.letter) ?_
  simp only [MsgType.ofLetter_letter, hmask]
  exact h

theorem transfers_exception_body {err : PlcMsgError} (h : err.wellFormed = true) :
    Transfers (emit [sendCstring err.message, sendCstring err.stacktrace, messageEnd])
      receiveException err := by
  simp only [PlcMsgError.wellFormed, Bool.and_eq_true] at h
  refine Transfers.cons (transfers_sendCstring h.1) ?_
  refine Transfers.cons (transfers_sendCstring h.2) ?_
  exact transfers_end _

theorem transfers_call_body {m : PlcMsgCallreq} (h : m.wellFormed = true) :
    Transfers (emit [sendCstring m.proc.name, sendCstring m.proc.src, sendCstring m.serverenc,
        sendInt32 m.logLevel, sendUint32 m.objectid, sendInt32 m.hasChanged, sendType m.retType,
        sendInt32 m.retset, sendInt32 m.nargs, writeN sendArgument m.nargs.toInt.toNat m.args,
        messageEnd])
      receiveCall (m.mapData Value.deliveredRaw) := by
  simp only [PlcMsgCallreq.wellFormed, Bool.and_eq_true] at h
  obtain ⟨⟨⟨⟨hname, hsrc⟩, henc⟩, hret⟩, hargs⟩ := h
  refine Transfers.cons (transfers_sendCstring hname) ?_
  refine Transfers.cons (transfers_sendCstring hsrc) ?_
  refine Transfers.cons (transfers_sendCstring henc) ?_
  refine Transfers.cons (transfers_sendInt32 _) ?_
  refine Transfers.cons (transfers_sendUint32 _) ?_
  refine Transfers.cons (transfers_sendInt32 _) ?_
  refine Transfers.cons (transfers_sendType hret) ?_
  refine Transfers.cons (transfers_sendInt32 _) ?_
  refine Transfers.cons (transfers_sendInt32 _) ?_
  refine Transfers.cons (transfers_arguments hargs) ?_
  exact transfers_end _

/-- What `send_result` puts after its columns: the rows, unless there is no column. -/
theorem transfers_rows {m : PlcMsgResult} (h : m.wellFormed = true) :
    Transfers
      (if m.cols = 0 then some [] else writeN (sendRow m.cols.toNat m.types) m.rows.toNat m.data)
      (receiveRows m.rows.toNat m.cols.toNat m.types) (m.data.map (List.map Value.deliveredRaw)) := by
  simp only [PlcMsgResult.wellFormed, Bool.and_eq_true, decide_eq_true_eq] at h
  obtain ⟨⟨⟨⟨⟨hcols, _⟩, htypes⟩, _⟩, hdata⟩, _⟩ := h
  rw [allWellFormed_iff] at htypes
  by_cases hzero : m.cols = 0
  · rw [if_pos hzero, List.isEmpty_iff] at hdata
    have hnat : ¬ 0 < m.cols.toNat := by rw [hzero]; decide
    rw [receiveRows, if_pos hzero, if_neg hnat, hdata]
    exact Transfers.nil []
  · rw [if_neg hzero] at hdata
    simp only [Bool.and_eq_true, decide_eq_true_eq, List.all_eq_true] at hdata
    have hpos : 0 < m.cols.toNat := by
      rw [Nat.pos_iff_ne_zero]
      exact fun he => hzero (BitVec.eq_of_toNat_eq he)
    rw [receiveRows, if_neg hzero, if_pos hpos, hdata.1, hcols]
    exact transfers_writeN _ _ _ m.data fun row hrow =>
      transfers_sendRow m.types htypes row (hdata.2 row hrow)

theorem transfers_result {m : PlcMsgResult} {mask : BitVec 64} (h : m.wellFormed = true)
    (hmask : MsgType.allowedBy .result mask = true) :
    Transfers (sendResult m) (plcontainerChannelReceive mask)
      ((PlcMessage.result m).answer.mapData Value.deliveredRaw) := by
  have hrows := transfers_rows h
  simp only [PlcMsgResult.wellFormed, Bool.and_eq_true, decide_eq_true_eq, List.all_eq_true] at h
  obtain ⟨⟨⟨⟨⟨hcols, hnames⟩, htypes⟩, hnamesOk⟩, _⟩, herr⟩ := h
  rw [allWellFormed_iff] at htypes
  have hcolumns := transfers_columns hnames htypes hnamesOk
  rw [← hcols] at hcolumns
  have hfst : (m.types.zip m.names).map Prod.fst = m.types := List.map_fst_zip (by omega)
  have hsnd : (m.types.zip m.names).map Prod.snd = m.names := List.map_snd_zip (by omega)
  refine transfers_message hmask ?_
  refine Transfers.cons (transfers_sendUint32 m.rows) ?_
  refine Transfers.cons (transfers_sendUint32 m.cols) ?_
  refine Transfers.cons hcolumns ?_
  simp only [hfst, hsnd]
  refine Transfers.cons hrows ?_
  rw [emit_messageEnd]
  rcases hcall : m.exceptionCallback with _ | _ | err
  · rw [← emit_singleton (sendChar _)]
    refine Transfers.cons (transfers_sendChar 'N'.toUInt8) ?_
    rw [if_neg (by decide), PlcMessage.answer, hcall]
    exact Transfers.nil _
  · rw [← emit_singleton (sendChar _)]
    refine Transfers.cons (transfers_sendChar 'N'.toUInt8) ?_
    rw [if_neg (by decide), PlcMessage.answer, hcall]
    exact Transfers.nil _
  · have hok : err.wellFormed = true := by simpa [hcall] using herr
    refine Transfers.cons (transfers_sendChar (MsgType.letter .exception)) ?_
    rw [if_pos rfl, PlcMessage.answer, hcall]
    exact (transfers_exception_body hok).map PlcMessage.exception

theorem transfers_sql {m : PlcMsgSQL} {mask : BitVec 64} (h : m.wellFormed = true)
    (hmask : MsgType.allowedBy .sql mask = true) :
    Transfers (sendSql m) (plcontainerChannelReceive mask)
      (.sql (m.mapData Value.deliveredRaw)) := by
  have hbody : ∀ {ws : List Writer}, Transfers (emit ws) receiveSql (m.mapData Value.deliveredRaw) →
      Transfers (emit (messageStart .sql :: ws)) (plcontainerChannelReceive mask)
        (.sql (m.mapData Value.deliveredRaw)) := fun hws =>
    transfers_message hmask (hws.map PlcMessage.sql)
  cases m with
  | statement limit stmt =>
      refine hbody (Transfers.cons (transfers_sendInt32 _) ?_)
      rw [PlcMsgSQL.sqltype, if_pos rfl]
      refine Transfers.cons (transfers_sendInt64 limit) ?_
      refine Transfers.cons (transfers_sendCstring h) ?_
      exact transfers_end _
  | prepare nargs args stmt =>
      simp only [PlcMsgSQL.wellFormed, Bool.and_eq_true] at h
      refine hbody (Transfers.cons (transfers_sendInt32 _) ?_)
      rw [PlcMsgSQL.sqltype, if_neg (by decide), if_pos rfl]
      refine Transfers.cons (transfers_sendInt32 nargs) ?_
      refine Transfers.cons (transfers_arguments h.1) ?_
      refine Transfers.cons (transfers_sendCstring h.2) ?_
      exact transfers_end _
  | unprepare pplan =>
      refine hbody (Transfers.cons (transfers_sendInt32 _) ?_)
      rw [PlcMsgSQL.sqltype, if_neg (by decide), if_neg (by decide), if_pos rfl]
      refine Transfers.cons (transfers_sendInt64 pplan) ?_
      exact transfers_end _
  | pexecute nargs args limit pplan =>
      refine hbody (Transfers.cons (transfers_sendInt32 _) ?_)
      rw [PlcMsgSQL.sqltype, if_neg (by decide), if_neg (by decide), if_neg (by decide), if_pos rfl]
      refine Transfers.cons (transfers_sendInt32 nargs) ?_
      refine Transfers.cons (transfers_arguments h) ?_
      refine Transfers.cons (transfers_sendInt64 limit) ?_
      refine Transfers.cons (transfers_sendInt64 pplan) ?_
      exact transfers_end _
  | unhandled sqltype => simp [PlcMsgSQL.wellFormed] at h

theorem writeN_sendChar (bs : List UInt8) : writeN sendChar bs.length bs = some bs := by
  induction bs with
  | nil => rfl
  | cons b bs ih => simp [writeN, emit, sendChar, ih]

theorem transfers_rawmsg_body {m : PlcMsgRaw} (h : m.size.toInt = m.data.length) :
    Transfers (emit [sendInt32 m.size, writeN sendChar m.size.toInt.toNat m.data, messageEnd])
      receiveRawmsg m := by
  obtain ⟨size, data⟩ := m
  have hsize : size.toInt = data.length := h
  have hnonneg : ¬ size.toInt < 0 := by omega
  refine Transfers.cons (transfers_sendInt32 size) ?_
  rw [if_neg hnonneg, emit_messageEnd, hsize, Int.toNat_natCast, writeN_sendChar]
  exact (transfers_readBytes ChannelError.failed data).map (PlcMsgRaw.mk size)

/-- A raw message is delivered as it is, whatever its length. -/
theorem transfers_rawmsg {m : PlcMsgRaw} {mask : BitVec 64} (h : m.size.toInt = m.data.length)
    (hmask : MsgType.allowedBy .raw mask = true) :
    Transfers (sendRawmsg m) (plcontainerChannelReceive mask) (.raw m) :=
  transfers_message hmask ((transfers_rawmsg_body h).map PlcMessage.raw)

theorem transfers_ping_body :
    Transfers (emit [sendCstring (some plcontainerVersion), messageEnd]) receivePing () := by
  refine Transfers.cons (transfers_sendCstring (by decide)) ?_
  rw [if_pos (by decide)]
  exact transfers_end ()

/-- Every message is delivered in its received form. -/
theorem transfers_plcontainerChannelSend (m : PlcMessage) (mask : BitVec 64)
    (h : m.wellFormed = true) (hmask : m.msgtype.allowedBy mask = true) :
    Transfers (plcontainerChannelSend m) (plcontainerChannelReceive mask)
      (m.answer.mapData Value.deliveredRaw) := by
  cases m with
  | ping => exact transfers_message hmask (transfers_ping_body.map fun _ => PlcMessage.ping)
  | callreq m => exact transfers_message hmask ((transfers_call_body h).map PlcMessage.callreq)
  | result m => exact transfers_result h hmask
  | exception m =>
      exact transfers_message hmask ((transfers_exception_body h).map PlcMessage.exception)
  | log m =>
      refine transfers_message hmask (Transfers.map PlcMessage.log ?_)
      refine Transfers.cons (transfers_sendInt32 m.level) ?_
      exact Transfers.cons (transfers_sendCstring h) (transfers_end _)
  | quote m =>
      refine transfers_message hmask (Transfers.map PlcMessage.quote ?_)
      refine Transfers.cons (transfers_sendInt32 m.quoteType) ?_
      exact Transfers.cons (transfers_sendCstring h) (transfers_end _)
  | quoteResult m =>
      refine transfers_message hmask (Transfers.map PlcMessage.quoteResult ?_)
      refine Transfers.cons (transfers_sendInt32 m.quoteType) ?_
      exact Transfers.cons (transfers_sendCstring h) (transfers_end _)
  | sql m => exact transfers_sql h hmask
  | raw m =>
      have hraw : m.wellFormed = true := h
      simp only [PlcMsgRaw.wellFormed, Bool.and_eq_true, decide_eq_true_eq] at hraw
      exact transfers_rawmsg hraw.1 hmask
  | subtransaction m =>
      refine transfers_message hmask (Transfers.map PlcMessage.subtransaction ?_)
      refine Transfers.cons (transfers_sendChar m.action) ?_
      exact Transfers.cons (transfers_sendChar m.type) (transfers_end _)
  | subtranResult m =>
      refine transfers_message hmask (Transfers.map PlcMessage.subtranResult ?_)
      exact Transfers.cons (transfers_sendInt16 m.result) (transfers_end _)

/-! ## Reading a delivered message back -/

theorem readBack_of_flatMatches {t : PlcDatatype} {v : Value} (h : flatMatches t v = true) :
    v.readBack = v := by
  cases v <;> first | rfl | (cases t <;> simp [flatMatches] at h)

theorem readBack_fields (ts : List PlcType)
    (h : ∀ t ∈ ts, ∀ o, rawMatches t o = true → Value.readBackRaw (Value.deliveredRaw o) = o) :
    ∀ ds, fieldsMatch ts ds = true → Value.readBackAll (Value.deliveredAll ds) = ds := by
  induction ts with
  | nil =>
      intro ds hds
      cases ds with
      | nil => rfl
      | cons d ds => simp [fieldsMatch] at hds
  | cons t ts ih =>
      intro ds hds
      cases ds with
      | nil => rfl
      | cons d ds =>
          simp only [fieldsMatch, Bool.and_eq_true] at hds
          have hd := h t (List.mem_cons_self ..) d hds.1
          have htail := ih (fun s hs => h s (List.mem_cons_of_mem _ hs)) ds hds.2
          rw [Value.deliveredAll, Value.readBackAll, hd, htail]

/-- The flat array built from an iterator gives back the elements, nulls included. -/
theorem readBack_elements {elems : List RawData}
    (h : ∀ o ∈ elems, Value.readBackRaw (Value.deliveredRaw o) = o) :
    List.zipWith arrayEntry (elems.map Option.isNone)
      (Value.readBackAll (Value.deliveredAll elems)) = elems := by
  rw [Value.deliveredAll_eq_map, Value.readBackAll_eq_map, List.map_map, List.zipWith_map,
    List.zipWith_self]
  conv_rhs => rw [← List.map_id elems]
  refine List.map_congr_left fun o ho => ?_
  have hback := h o ho
  cases o with
  | none => rfl
  | some v => exact hback

theorem readBackRaw_deliveredRaw (t : PlcType) (ht : t.wellFormed = true) :
    ∀ o, rawMatches t o = true → Value.readBackRaw (Value.deliveredRaw o) = o := by
  induction t using PlcType.induct with
  | mk type typeName nSubTypes subTypes ih =>
      intro o ho
      simp only [PlcType.wellFormed, Bool.and_eq_true, decide_eq_true_eq] at ht
      obtain ⟨⟨_, hshape⟩, hsubs⟩ := ht
      rw [allWellFormed_iff] at hsubs
      cases o with
      | none => rfl
      | some v =>
          rw [Value.deliveredRaw, Value.readBackRaw]
          by_cases hflat : type.hasSubTypes = false
          · have hv := rawMatches_flat hflat ho
            rw [delivered_of_flatMatches hv, readBack_of_flatMatches hv]
          · rcases hasSubTypes_cases hflat with rfl | rfl
            · obtain ⟨e, arrMeta, elems, rfl, rfl, _, _, _, hall⟩ := rawMatches_array hshape ho
              have he : e ∈ [e] := List.mem_cons_self ..
              rw [Value.delivered, Value.readBack,
                readBack_elements fun o ho => ih e he (hsubs e he) o (hall o ho)]
            · obtain ⟨data, rfl, hdata⟩ := rawMatches_udt ho
              rw [Value.delivered, Value.readBack,
                readBack_fields subTypes (fun s hs => ih s hs (hsubs s hs)) data hdata]

theorem readBack_arguments {nargs : BitVec 32} {args : List PlcArgument}
    (h : argumentsOk nargs args = true) :
    (args.map (PlcArgument.mapData Value.deliveredRaw)).map
      (PlcArgument.mapData Value.readBackRaw) = args := by
  simp only [argumentsOk, Bool.and_eq_true, List.all_eq_true] at h
  rw [List.map_map]
  conv_rhs => rw [← List.map_id args]
  refine List.map_congr_left fun arg harg => ?_
  have hok := h.2 arg harg
  simp only [PlcArgument.wellFormed, Bool.and_eq_true] at hok
  simp only [Function.comp_apply, PlcArgument.mapData,
    readBackRaw_deliveredRaw arg.type hok.1.2 arg.data hok.2, id_eq]

theorem readBack_rows {m : PlcMsgResult} (h : m.wellFormed = true) :
    (m.data.map (List.map Value.deliveredRaw)).map (List.map Value.readBackRaw) = m.data := by
  simp only [PlcMsgResult.wellFormed, Bool.and_eq_true, decide_eq_true_eq] at h
  obtain ⟨⟨⟨⟨_, htypes⟩, _⟩, hdata⟩, _⟩ := h
  rw [allWellFormed_iff] at htypes
  by_cases hzero : m.cols = 0
  · rw [if_pos hzero, List.isEmpty_iff] at hdata
    rw [hdata]
    rfl
  · rw [if_neg hzero] at hdata
    simp only [Bool.and_eq_true, List.all_eq_true] at hdata
    rw [List.map_map]
    conv_rhs => rw [← List.map_id m.data]
    refine List.map_congr_left fun row hrow => ?_
    have hfields := readBack_fields m.types
      (fun t ht => readBackRaw_deliveredRaw t (htypes t ht)) row (hdata.2 row hrow)
    rw [Value.deliveredAll_eq_map, Value.readBackAll_eq_map] at hfields
    exact hfields

theorem readBack_answer (m : PlcMessage) (h : m.wellFormed = true) :
    (m.answer.mapData Value.deliveredRaw).readBack = m.answer := by
  cases m with
  | callreq m =>
      simp only [PlcMessage.wellFormed, PlcMsgCallreq.wellFormed, Bool.and_eq_true] at h
      simp only [PlcMessage.answer, PlcMessage.readBack, PlcMessage.mapData, PlcMsgCallreq.mapData,
        readBack_arguments h.2]
  | result m =>
      rcases hcall : m.exceptionCallback with _ | _ | err <;>
        simp only [PlcMessage.answer, hcall, PlcMessage.readBack, PlcMessage.mapData,
          PlcMsgResult.mapData, readBack_rows h]
  | sql m =>
      cases m with
      | prepare nargs args stmt =>
          simp only [PlcMessage.wellFormed, PlcMsgSQL.wellFormed, Bool.and_eq_true] at h
          simp only [PlcMessage.answer, PlcMessage.readBack, PlcMessage.mapData, PlcMsgSQL.mapData,
            readBack_arguments h.1]
      | pexecute nargs args limit pplan =>
          simp only [PlcMessage.wellFormed, PlcMsgSQL.wellFormed] at h
          simp only [PlcMessage.answer, PlcMessage.readBack, PlcMessage.mapData, PlcMsgSQL.mapData,
            readBack_arguments h]
      | _ => rfl
  | _ => rfl

/-- One column of type `(int4, text)[]`, and a row whose array has a composite value and a null. -/
def compositeArrayResult : PlcMessage :=
  .result
    { rows := 1
      cols := 1
      types := [.mk .array none 1 [.mk .udt (some [112, 116]) 2 [.mk .int4 none 0 [],
        .mk .text none 0 []]]]
      names := [some [99]]
      data := [[some (.iterator ⟨.udt, 1, [2], 2⟩
        [some (.udt [some (.int4 7), some (.text (some [104, 105]))]), none])]]
      exceptionCallback := none }

end PlContainer
