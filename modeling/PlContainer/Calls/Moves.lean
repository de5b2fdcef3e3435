import PlContainer.Calls.Protocol

set_option autoImplicit false

/-! # What a step of the call protocol can do

`CallState.Moves` lists the branches of `CallState.step`, each with its guard and the state it leads
to. Invariants are proved over its constructors, so the step function is taken apart only here. -/

namespace PlContainer

/-- The backend answers on the connection of a request, or sends a CALLREQ. -/
def Conn.send (conn : Conn) (m : ToClient) : Conn :=
  { conn with toClient := conn.toClient ++ [m] }

/-- The state in which the innermost call waits for its client. -/
def CallState.wait (s : CallState) (c : ConnId) (fs : List Frame) (conn : Conn) : CallState :=
  { s.setConn c conn with stack := .waiting c :: fs }

inductive CallState.Moves (s : CallState) : CallStep → CallState → Prop where
  | enter (hu : s.unwinding = false)
      (hs : ∀ f fs, s.stack = f :: fs → ∃ c id kind, f = .executing c id kind) :
      s.Moves .enter { s with stack := .entering :: s.stack }
  | dispatchKnown {r : RuntimeId} {lang : Language} {fs : List Frame} {c : ConnId} {conn : Conn}
      (hu : s.unwinding = false) (hs : s.stack = .entering :: fs) (hr : s.containers r = some c)
      (hc : s.conns c = some conn) :
      s.Moves (.dispatch r lang) { s.wait c fs (conn.send .callreq) with flag := true }
  | dispatchNew {r : RuntimeId} {lang : Language} {fs : List Frame} (hu : s.unwinding = false)
      (hs : s.stack = .entering :: fs) (hr : s.containers r = none) :
      s.Moves (.dispatch r lang)
        { s.wait s.nextConn fs ⟨lang, [], [.callreq], []⟩ with
          flag := true
          containers := fun q => if q = r then some s.nextConn else s.containers q
          nextConn := s.nextConn + 1 }
  | startFails {r : RuntimeId} {fs : List Frame} (hu : s.unwinding = false)
      (hs : s.stack = .entering :: fs) (hr : s.containers r = none) :
      s.Moves (.startFails r) { s with flag := true, unwinding := true }
  | fail {f : Frame} {fs : List Frame} (hu : s.unwinding = false) (hs : s.stack = f :: fs) :
      s.Moves .fail { s with unwinding := true }
  | log {c : ConnId} {fs : List Frame} {conn : Conn} {rest : List ToBackend}
      (hu : s.unwinding = false) (hs : s.stack = .waiting c :: fs) (hc : s.conns c = some conn)
      (hq : conn.toBackend = .log :: rest) :
      s.Moves .backendReceive (s.setConn c { conn with toBackend := rest })
  | execute {c : ConnId} {fs : List Frame} {conn : Conn} {rest : List ToBackend} {id : ℕ}
      {kind : RequestKind} (hu : s.unwinding = false) (hs : s.stack = .waiting c :: fs)
      (hc : s.conns c = some conn) (hq : conn.toBackend = .request id kind :: rest)
      (hk : kind.nests = true) :
      s.Moves .backendReceive
        { s.setConn c { conn with toBackend := rest } with stack := .executing c id kind :: fs }
  | answer {c : ConnId} {fs : List Frame} {conn : Conn} {rest : List ToBackend} {id : ℕ}
      {kind : RequestKind} (hu : s.unwinding = false) (hs : s.stack = .waiting c :: fs)
      (hc : s.conns c = some conn) (hq : conn.toBackend = .request id kind :: rest) :
      s.Moves .backendReceive
        (s.setConn c ({ conn with toBackend := rest }.send (.answer id kind)))
  | terminal {c : ConnId} {fs : List Frame} {conn : Conn} {rest : List ToBackend} {t : Terminal}
      (hu : s.unwinding = false) (hs : s.stack = .waiting c :: fs) (hc : s.conns c = some conn)
      (hq : conn.toBackend = .terminal t :: rest) :
      s.Moves .backendReceive
        { s.setConn c { conn with toBackend := rest } with
          stack := .finished :: fs
          flag := s.flag && decide (t = .logError)
          unwinding := decide (t ≠ .result) }
  | complete {c : ConnId} {fs : List Frame} {id : ℕ} {kind : RequestKind} {conn : Conn}
      (hu : s.unwinding = false) (hs : s.stack = .executing c id kind :: fs)
      (hc : s.conns c = some conn) :
      s.Moves .complete (s.wait c fs (conn.send (.answer id kind)))
  | completeClosed {c : ConnId} {fs : List Frame} {id : ℕ} {kind : RequestKind}
      (hu : s.unwinding = false) (hs : s.stack = .executing c id kind :: fs)
      (hc : s.conns c = none) : s.Moves .complete { s with stack := .waiting c :: fs }
  | finish {fs : List Frame} (hu : s.unwinding = false) (hs : s.stack = .finished :: fs) :
      s.Moves .finish { s with stack := fs }
  | unwindDelete {interrupt : Bool} {f : Frame} {fs : List Frame} (hu : s.unwinding = true)
      (hs : s.stack = f :: fs) (hd : s.flag = true ∨ interrupt = true) :
      s.Moves (.unwind interrupt)
        { s.deleteContainers with
          stack := fs
          unwinding := !fs.isEmpty
          deleted := !fs.isEmpty }
  | unwindKeep {interrupt : Bool} {f : Frame} {fs : List Frame} (hu : s.unwinding = true)
      (hs : s.stack = f :: fs) (hd : s.flag = false ∧ interrupt = false) :
      s.Moves (.unwind interrupt)
        { s with stack := fs, unwinding := !fs.isEmpty, deleted := s.deleted && !fs.isEmpty }
  | catchError {c : ConnId} {id : ℕ} {kind : RequestKind} {fs : List Frame}
      (hu : s.unwinding = true) (hs : s.stack = .executing c id kind :: fs) :
      s.Moves .catchError { s with unwinding := false, deleted := false }
  | clientReceive {c : ConnId} {conn : Conn} {m : ToClient} {rest : List ToClient}
      {mask : BitVec 64} (hc : s.conns c = some conn) (hq : conn.toClient = m :: rest)
      (hmask : conn.mask = some mask) (hm : m.msgtype.allowedBy mask = true) :
      s.Moves (.clientReceive c) (s.setConn c (conn.accept m rest))
  | clientLog {c : ConnId} {conn : Conn} {cs : List ClientFrame} (hc : s.conns c = some conn)
      (hcs : conn.client = .running :: cs) :
      s.Moves (.clientLog c) (s.setConn c { conn with toBackend := conn.toBackend ++ [.log] })
  | clientRequest {c : ConnId} {conn : Conn} {cs : List ClientFrame} {kind : RequestKind}
      (hc : s.conns c = some conn) (hcs : conn.client = .running :: cs)
      (hk : conn.lang.sends kind = true) :
      s.Moves (.clientRequest c kind)
        { s.setConn c { conn with
            client := .pending s.nextId kind :: cs
            toBackend := conn.toBackend ++ [.request s.nextId kind] } with
          nextId := s.nextId + 1 }
  | clientEnd {c : ConnId} {conn : Conn} {cs : List ClientFrame} {t : Terminal}
      (hc : s.conns c = some conn) (hcs : conn.client = .running :: cs) :
      s.Moves (.clientEnd c t)
        (s.setConn c { conn with client := cs, toBackend := conn.toBackend ++ [.terminal t] })

theorem CallState.enter_moves {s s' : CallState} (h : s.enter = some s') : s.Moves .enter s' := by
  unfold CallState.enter at h
  split at h
  next hu hs =>
    cases h
    rw [← hs]
    exact .enter hu fun f fs hf => absurd (hs.symm.trans hf) (by simp)
  next c id kind fs hu hs =>
    cases h
    rw [← hs]
    refine .enter hu fun f gs hf => ⟨c, id, kind, ?_⟩
    cases hs.symm.trans hf
    rfl
  next => cases h

theorem CallState.dispatch_moves {s s' : CallState} {r : RuntimeId} {lang : Language}
    (h : s.dispatch r lang = some s') : s.Moves (.dispatch r lang) s' := by
  unfold CallState.dispatch at h
  split at h
  next fs hu hs =>
    split at h
    next c hr =>
      split at h
      next conn hc =>
        cases h
        exact .dispatchKnown hu hs hr hc
      next => cases h
    next hr =>
      cases h
      exact .dispatchNew hu hs hr
  next => cases h

theorem CallState.backendReceive_moves {s s' : CallState} (h : s.backendReceive = some s') :
    s.Moves .backendReceive s' := by
  unfold CallState.backendReceive at h
  split at h
  next c fs hu hs =>
    split at h
    next conn hc =>
      split at h
      next m rest hq =>
        cases h
        cases m with
        | log => exact .log hu hs hc hq
        | request id kind =>
            rw [CallState.serve]
            split
            next hk => exact .execute hu hs hc hq hk
            next => exact .answer hu hs hc hq
        | terminal t =>
            have hmove := Moves.terminal hu hs hc hq
            cases t with
            | result => simpa [CallState.serve, CallState.setConn, hu] using hmove
            | exception => simpa [CallState.serve, CallState.setConn] using hmove
            | logError => simpa [CallState.serve, CallState.setConn] using hmove
      next => cases h
    next => cases h
  next => cases h

theorem CallState.complete_moves {s s' : CallState} (h : s.complete = some s') :
    s.Moves .complete s' := by
  unfold CallState.complete at h
  split at h
  next c id kind fs hu hs =>
    split at h
    next conn hc =>
      cases h
      exact .complete hu hs hc
    next hc =>
      cases h
      exact .completeClosed hu hs hc
  next => cases h

theorem CallState.unwind_moves {s s' : CallState} {interrupt : Bool}
    (h : s.unwind interrupt = some s') : s.Moves (.unwind interrupt) s' := by
  unfold CallState.unwind at h
  split at h
  next f fs hu hs =>
    cases h
    by_cases hd : s.flag = true ∨ interrupt = true
    · have hor : (s.flag || interrupt) = true := by simpa using hd
      simpa [hor, CallState.deleteContainers] using Moves.unwindDelete hu hs hd
    · have hnor : s.flag = false ∧ interrupt = false := by simpa using hd
      simpa [hnor] using Moves.unwindKeep hu hs hnor
  next => cases h

theorem CallState.clientReceive_moves {s s' : CallState} {c : ConnId}
    (h : s.clientReceive c = some s') : s.Moves (.clientReceive c) s' := by
  unfold CallState.clientReceive at h
  split at h
  next conn hc =>
    split at h
    next m rest mask hq hmask =>
      split at h
      next hm =>
        cases h
        exact .clientReceive hc hq hmask hm
      next => cases h
    next => cases h
  next => cases h

theorem CallState.clientRequest_moves {s s' : CallState} {c : ConnId} {kind : RequestKind}
    (h : s.clientRequest c kind = some s') : s.Moves (.clientRequest c kind) s' := by
  unfold CallState.clientRequest at h
  split at h
  next hc =>
    split at h
    next hk =>
      cases h
      exact .clientRequest hc rfl hk
    next => cases h
  next => cases h

/-- **Every step is one of the moves.** -/
theorem CallState.step_moves {s s' : CallState} {step : CallStep} (h : s.step step = some s') :
    s.Moves step s' := by
  cases step with
  | enter => exact CallState.enter_moves h
  | dispatch r lang => exact CallState.dispatch_moves h
  | startFails r =>
      simp only [CallState.step, CallState.startFails] at h
      split at h
      next hu hs hr =>
        cases h
        exact .startFails hu hs hr
      next => cases h
  | fail =>
      simp only [CallState.step, CallState.fail] at h
      split at h
      next hu hs =>
        cases h
        exact .fail hu hs
      next => cases h
  | backendReceive => exact CallState.backendReceive_moves h
  | complete => exact CallState.complete_moves h
  | finish =>
      simp only [CallState.step, CallState.finish] at h
      split at h
      next hu hs =>
        cases h
        exact .finish hu hs
      next => cases h
  | unwind interrupt => exact CallState.unwind_moves h
  | catchError =>
      simp only [CallState.step, CallState.catchError] at h
      split at h
      next hu hs =>
        cases h
        exact .catchError hu hs
      next => cases h
  | clientReceive c => exact CallState.clientReceive_moves h
  | clientLog c =>
      simp only [CallState.step, CallState.clientLog] at h
      split at h
      next hc =>
        cases h
        exact .clientLog hc rfl
      next => cases h
  | clientRequest c kind => exact CallState.clientRequest_moves h
  | clientEnd c t =>
      simp only [CallState.step, CallState.clientEnd] at h
      split at h
      next hc =>
        cases h
        exact .clientEnd hc rfl
      next => cases h

end PlContainer
