import PlContainer.Clients.Python.StreamedReply
import PlContainer.Library.Utf8

set_option autoImplicit false

/-! # Texts there and back

A text comes to the Python client in the encoding of the database, and `plc_pyobject_from_text` reads it
as UTF-8. What a function returns is written by `plc_pyobject_as_text` in the encoding that the call
request names. Where the two differ, a text that is valid in both is taken for another one. -/

namespace PlContainer

/-! ## Encodings -/

/-- `plcontainer_generate_call_request`: the name of the encoding, for Python. -/
def serverenc (databaseEncodingName : String) : String :=
  if databaseEncodingName = "SQL_ASCII" then "ascii" else databaseEncodingName

/-- A codec of Python. -/
structure PyCodec where
  decode : List UInt8 → Option PyStr
  encode : PyStr → Option (List UInt8)

/-- Both directions are inverse to each other, on the texts of the database that can be decoded and on
    what can be encoded. SQL_ASCII has texts that the codec `ascii` does not decode. -/
structure PyCodec.Inverse (codec : PyCodec) (valid : List UInt8 → Prop) : Prop where
  encode_decode : ∀ bytes s, valid bytes → codec.decode bytes = some s → codec.encode s = some bytes
  decode_encode : ∀ s bytes, codec.encode s = some bytes → codec.decode bytes = some s

/-- A database encoding that Python knows. -/
structure KnownEncoding where
  /-- `GetDatabaseEncodingName` -/
  name : String
  /-- the texts of the database -/
  valid : List UInt8 → Prop
  /-- the codecs of the interpreter -/
  codecs : String → Option PyCodec
  codec : PyCodec
  known : codecs (serverenc name) = some codec
  inverse : codec.Inverse valid

/-- Python 3 in a call of a database with this encoding: `serverenc` names its codec. -/
structure TextApi (α : Type) (encoding : KnownEncoding) extends PyApi α where
  python3_eq : python3 = true
  encode_eq : encode = encoding.codec.encode
  /-- a new `str` -/
  newStr : PyStr → α
  unicode_newStr : ∀ s, unicode (newStr s) = some s

section Echo

variable {α : Type} {encoding : KnownEncoding} (api : TextApi α encoding)

/-- The code points that `PyUnicode_FromString` reads; nothing if it raises. -/
def fromUtf8 (bytes : List UInt8) : Option PyStr := (Utf8.decode bytes).map (·.map Char.toNat)

/-- `plc_pyobject_from_text`; nothing for `NULL`, which `arguments_to_pytuple` reports. -/
def TextApi.plcPyobjectFromText (input : CString) : Option (PyObj α) :=
  (fromUtf8 input).map fun s => .leaf (api.newStr s)

/-- The text comes back with the same bytes, unless there is an error on the way. -/
def TextApi.Echoes (bytes : CString) : Prop :=
  ∀ o, api.plcPyobjectFromText bytes = some o → ∀ out, api.plcPyobjectAsText o = .ok out →
    out.ok = true → out.output = .flat (.text (some bytes))

/-- What `plc_pyobject_as_text` makes of a `str`. -/
theorem TextApi.plcPyobjectAsText_newStr (s : PyStr) :
    api.plcPyobjectAsText (.leaf (api.newStr s)) =
      (encoding.codec.encode s).elim (.error .exits) fun bytes =>
        .ok ⟨true, .flat (.text (some (bytes.takeWhile (· ≠ 0)))), []⟩ := by
  simp only [PyApi.plcPyobjectAsText, PyApi.plrvBo, PyApi.unicode?, api.unicode_newStr,
    PyApi.plyUnicodeBytes, api.encode_eq]
  cases encoding.codec.encode s <;> rfl

/-- A text comes back if what its `str` is encoded to is the text, up to the first NUL. -/
theorem TextApi.echoes_iff_takeWhile (bytes : CString) :
    api.Echoes bytes ↔ ∀ s, fromUtf8 bytes = some s → ∀ sent, encoding.codec.encode s = some sent →
      sent.takeWhile (· ≠ 0) = bytes := by
  constructor
  · intro hechoes s hs sent hsent
    have hout := hechoes (.leaf (api.newStr s)) (by rw [plcPyobjectFromText, hs]; rfl)
      ⟨true, .flat (.text (some (sent.takeWhile (· ≠ 0)))), []⟩
      (by rw [plcPyobjectAsText_newStr, hsent, Option.elim_some]) rfl
    simpa using hout
  · intro hsame o ho out hout _
    obtain ⟨s, hs, rfl⟩ := Option.map_eq_some_iff.1 ho
    rw [plcPyobjectAsText_newStr] at hout
    cases hsent : encoding.codec.encode s with
    | none =>
      rw [hsent] at hout
      cases hout
    | some sent =>
      rw [hsent, Option.elim_some] at hout
      rw [← Except.ok.inj hout, hsame s hs sent hsent]

/-- A C string without NUL is what `pstrdup` copies if it is all there is, or a NUL follows. -/
theorem takeWhile_ne_zero_eq_iff {sent bytes : List UInt8} (hnul : 0 ∉ bytes) :
    sent.takeWhile (· ≠ 0) = bytes ↔ sent = bytes ∨ bytes ++ [0] <+: sent := by
  constructor
  · intro h
    have hsplit : bytes ++ sent.dropWhile (· ≠ 0) = sent := by
      rw [← h]
      exact List.takeWhile_append_dropWhile
    have hhead := List.head?_dropWhile_not (· ≠ 0) sent
    cases hrest : sent.dropWhile (· ≠ 0) with
    | nil =>
      rw [hrest, List.append_nil] at hsplit
      exact .inl hsplit.symm
    | cons c rest =>
      -- what is left begins with the NUL
      rw [hrest] at hhead
      obtain rfl : c = 0 := by simpa using hhead
      rw [hrest] at hsplit
      exact .inr ⟨rest, by rw [List.append_assoc, List.singleton_append, hsplit]⟩
  · have hall : ∀ b ∈ bytes, decide (b ≠ 0) = true := by
      intro b hb
      exact decide_eq_true fun h => hnul (h ▸ hb)
    rintro (rfl | ⟨rest, rfl⟩)
    · exact List.takeWhile_eq_self_iff.2 hall
    · rw [List.append_assoc, List.takeWhile_append_of_pos hall]
      simp

/-- A text comes back, unless there is an error, if and only if the encoding of the database means by
    these bytes what UTF-8 means by them. If the codec writes zero bytes for other characters than zero,
    a text may also come back because the rest is cut off. -/
theorem text_echo_iff {bytes : CString} (hvalid : encoding.valid bytes) (hnul : 0 ∉ bytes) :
    api.Echoes bytes ↔ ∀ s, fromUtf8 bytes = some s → ∀ sent, encoding.codec.encode s = some sent →
      encoding.codec.decode bytes = some s ∨ bytes ++ [0] <+: sent := by
  rw [api.echoes_iff_takeWhile]
  refine forall₂_congr fun s _ => forall₂_congr fun sent hsent => ?_
  rw [takeWhile_ne_zero_eq_iff hnul]
  refine or_congr_left ⟨?_, ?_⟩
  · rintro rfl
    exact encoding.inverse.decode_encode s sent hsent
  · intro hs
    exact Option.some.inj (hsent.symm.trans (encoding.inverse.encode_decode bytes s hvalid hs))

end Echo

/-! ## A database in UTF-8 -/

/-- Surrogates, which a `str` may hold, are not encoded. -/
def utf8Codec : PyCodec where
  decode := fromUtf8
  encode s := if ∀ n ∈ s, n.isValidChar then some (Utf8.encode (s.map Char.ofNat)) else none

theorem utf8Codec_inverse : utf8Codec.Inverse fun _ => True where
  encode_decode bytes s _ h := by
    obtain ⟨text, htext, rfl⟩ := Option.map_eq_some_iff.1 h
    have hchars : ∀ n ∈ text.map Char.toNat, n.isValidChar := by
      intro n hn
      obtain ⟨c, -, rfl⟩ := List.mem_map.1 hn
      exact c.valid
    have hmap : (text.map Char.toNat).map Char.ofNat = text := by
      rw [List.map_map]
      exact List.map_id'' Char.ofNat_toNat text
    simp only [utf8Codec, if_pos hchars, hmap, Utf8.decode_eq_some.1 htext]
  decode_encode s bytes h := by
    simp only [utf8Codec, Option.ite_none_right_eq_some, Option.some.injEq] at h
    obtain ⟨hchars, rfl⟩ := h
    have hmap : (s.map Char.ofNat).map Char.toNat = s := by
      rw [List.map_map]
      refine (List.map_congr_left fun n hn => ?_).trans s.map_id
      rw [Function.comp_apply, Char.ofNat, dif_pos (hchars n hn)]
      rfl
    simp only [utf8Codec, fromUtf8, Utf8.decode_encode, Option.map_some, hmap]

def utf8Database : KnownEncoding where
  name := "UTF8"
  valid bytes := (Utf8.decode bytes).isSome
  codecs name := if name = "UTF8" then some utf8Codec else none
  codec := utf8Codec
  known := rfl
  inverse := ⟨fun bytes s _ => utf8Codec_inverse.encode_decode bytes s trivial,
    utf8Codec_inverse.decode_encode⟩

/-- Both directions read the bytes alike, so that every text comes back. -/
theorem echoes_of_utf8Database {α : Type} (api : TextApi α utf8Database) {bytes : CString}
    (hnul : 0 ∉ bytes) : api.Echoes bytes := by
  rw [api.echoes_iff_takeWhile]
  intro s hs sent hsent
  have hencode : utf8Codec.encode s = some bytes := utf8Codec_inverse.encode_decode bytes s trivial hs
  exact (takeWhile_ne_zero_eq_iff hnul).2 (.inl (Option.some.inj (hsent.symm.trans hencode)))

/-! ## A database with one byte for each character -/

/-- The codec of ISO 8859-1. -/
def latin1Codec : PyCodec where
  decode bytes := some (bytes.map UInt8.toNat)
  encode s := if s.all (· < 256) then some (s.map UInt8.ofNat) else none

theorem latin1Codec_inverse : latin1Codec.Inverse fun _ => True where
  encode_decode bytes s _ h := by
    obtain rfl : bytes.map UInt8.toNat = s := Option.some.inj h
    have hall : (bytes.map UInt8.toNat).all (· < 256) = true := by
      simp only [List.all_map, List.all_eq_true, Function.comp_apply, decide_eq_true_eq]
      intro b _
      exact b.toNat_lt
    have hmap : (bytes.map UInt8.toNat).map UInt8.ofNat = bytes := by
      rw [List.map_map]
      exact List.map_id'' (fun _ => UInt8.ofNat_toNat) bytes
    simp only [latin1Codec, hall, hmap, if_true]
  decode_encode s bytes h := by
    simp only [latin1Codec, Option.ite_none_right_eq_some, List.all_eq_true, decide_eq_true_eq,
      Option.some.injEq] at h ⊢
    obtain ⟨hall, rfl⟩ := h
    rw [List.map_map]
    refine (List.map_congr_left fun n hn => ?_).trans s.map_id
    rw [Function.comp_apply, UInt8.toNat_ofNat_of_lt' (hall n hn), id]

def latin1Database : KnownEncoding where
  name := "LATIN1"
  valid _ := True
  codecs name := if name = "LATIN1" then some latin1Codec else none
  codec := latin1Codec
  known := rfl
  inverse := latin1Codec_inverse

def latin1Server : TextApi PyLeaf latin1Database where
  toPyApi := { asciiServer with encode := latin1Codec.encode }
  python3_eq := rfl
  encode_eq := rfl
  newStr := .str
  unicode_newStr _ := rfl

/-- ASCII characters are the same in both. -/
theorem text_echo_iff_letter : latin1Server.Echoes [97] := by
  refine (text_echo_iff latin1Server trivial (by decide)).2 fun s hs sent _ => .inl ?_
  have hletter : fromUtf8 [97] = some [97] := by decide
  rw [← hs, hletter]
  rfl

/-- The two characters `0xC3 0xA9` come back as one, `0xE9`. -/
theorem text_echo_changed :
    latin1Database.valid [0xC3, 0xA9] ∧ 0 ∉ ([0xC3, 0xA9] : CString) ∧
      ¬ latin1Server.Echoes [0xC3, 0xA9] := by
  refine ⟨trivial, by decide, fun h => ?_⟩
  have hread : fromUtf8 [0xC3, 0xA9] = some [0xE9] := by decide
  exact absurd ((latin1Server.echoes_iff_takeWhile _).1 h _ hread [0xE9] rfl) (by decide)

end PlContainer
