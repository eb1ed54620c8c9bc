import Hdds.Xrce.Protocol
import Hdds.Foundations.Assoc

/-! # XRCE client sessions

`hdds-xrce/src/session.rs`: the agent's table of client sessions, keyed by the one-byte
session id, each session holding its streams and the DDS objects it created.

* Hash maps are association lists; where the source iterates a `HashMap` (its order is
  unspecified) the model takes the list's order.
* `Instant::now()` is an explicit clock reading `now` in milliseconds.
* `create_session` walks the ids `1, 2, …, 255, 1, …` from `next_session_id` for a vacant
  one; the walk is `allocate`, on fuel 255, one turn of the cycle.
* `SessionTable.WellFormed`: every session is stored under its own id, id 0 (reserved for
  "no session" in replies) is never used, and the table never holds more than
  `max_clients` sessions. `createSession`, `put` of a session under its own id and
  `evictExpired` keep it.
-/

namespace Hdds.Xrce
open Wire
set_option autoImplicit false

/-! ## Streams -/

/-- `StreamKind`. -/
inductive StreamKind
  | BestEffort | Reliable
deriving DecidableEq, Repr

/-- `StreamKind::from_stream_id`: stream 0 is best effort, every other stream reliable. -/
def StreamKind.fromStreamId (id : UInt8) : StreamKind := if id = 0 then .BestEffort else .Reliable

/-- `StreamState`; `reassembly` is left out, no modelled function reads it. -/
structure StreamState where
  kind : StreamKind
  nextSendSeq : UInt16
  nextRecvSeq : UInt16
  unacked : AList (fun _ : UInt16 => List UInt8)

/-- `StreamState::new`. -/
def StreamState.new (kind : StreamKind) : StreamState := ⟨kind, 0, 0, ∅⟩

/-- `seq_lt`: `a` is before `b` in 16-bit serial arithmetic. -/
def seqLt (a b : UInt16) : Bool := a - b > 0x7FFF

/-- The `0..16u16` bit positions of an ACKNACK bitmap. -/
def bitmapBits : List UInt16 := (List.range 16).map UInt16.ofNat

/-- `StreamState::process_acknack`: drop what the peer acknowledged, then list the
still-unacknowledged sequences its bitmap asks for again. -/
def StreamState.processAcknack (st : StreamState) (ack : AcknackPayload) :
    StreamState × List UInt16 :=
  let acked := st.unacked.keys.filter (fun seq => seqLt seq ack.firstUnackedSeq)
  let unacked := acked.foldl (fun m seq => m.erase seq) st.unacked
  let retransmit := bitmapBits.filterMap fun bit =>
    let seq := ack.firstUnackedSeq + bit
    if ack.nackBitmap &&& (1 <<< bit) ≠ 0 ∧ (unacked.lookup seq).isSome then some seq else none
  ({st with unacked}, retransmit)

/-- The loop of `make_acknack`, over the remaining bit positions (it `break`s at the first
sequence after `last`). -/
def makeAcknackBitmap (nextRecvSeq first last : UInt16) : List UInt16 → UInt16 → UInt16
  | [], bitmap => bitmap
  | bit :: bits, bitmap =>
    let seq := nextRecvSeq + bit
    if seqLt last seq then bitmap
    else if seq ≠ nextRecvSeq ∧ seqLt seq first then makeAcknackBitmap nextRecvSeq first last bits bitmap
    else makeAcknackBitmap nextRecvSeq first last bits (bitmap ||| (1 <<< bit))

/-- `StreamState::make_acknack`. -/
def StreamState.makeAcknack (st : StreamState) (first last : UInt16) : AcknackPayload :=
  ⟨st.nextRecvSeq, makeAcknackBitmap st.nextRecvSeq first last bitmapBits 0⟩

/-! ## Sessions -/

/-- `XrceObject`. -/
structure XrceObject where
  objectId : UInt16
  kind : ObjectKind
  bridgeHandle : UInt32
deriving DecidableEq, Repr

/-- `ClientSession`; `last_activity` is the clock reading of the last touch. -/
structure ClientSession where
  sessionId : UInt8
  clientKey : ByteArr 4
  streamStates : AList (fun _ : UInt8 => StreamState)
  objects : AList (fun _ : UInt16 => XrceObject)
  lastActivity : ℕ

namespace ClientSession

/-- `ClientSession::new`: stream 0 exists from the start. -/
def new (sessionId : UInt8) (clientKey : ByteArr 4) (now : ℕ) : ClientSession :=
  ⟨sessionId, clientKey, (∅ : AList (fun _ : UInt8 => StreamState)).insert 0 (StreamState.new .BestEffort),
    ∅, now⟩

/-- `ClientSession::touch`. -/
def touch (s : ClientSession) (now : ℕ) : ClientSession := {s with lastActivity := now}

/-- `ClientSession::is_expired`. -/
def isExpired (s : ClientSession) (now timeoutMs : ℕ) : Bool := now - s.lastActivity > timeoutMs

/-- `ClientSession::stream`: the state of a stream, created on first use. -/
def stream (s : ClientSession) (streamId : UInt8) : StreamState × ClientSession :=
  match s.streamStates.lookup streamId with
  | some st => (st, s)
  | none =>
    let st := StreamState.new (StreamKind.fromStreamId streamId)
    (st, {s with streamStates := s.streamStates.insert streamId st})

/-- Write back a stream state the caller changed through the `&mut` that `stream` returned. -/
def setStream (s : ClientSession) (streamId : UInt8) (st : StreamState) : ClientSession :=
  {s with streamStates := s.streamStates.insert streamId st}

/-- `ClientSession::add_object`. -/
def addObject (s : ClientSession) (obj : XrceObject) : ClientSession :=
  {s with objects := s.objects.insert obj.objectId obj}

/-- `ClientSession::remove_object`. -/
def removeObject (s : ClientSession) (objectId : UInt16) : ClientSession × Option XrceObject :=
  ({s with objects := s.objects.erase objectId}, s.objects.lookup objectId)

/-- `ClientSession::get_object`. -/
def getObject (s : ClientSession) (objectId : UInt16) : Option XrceObject := s.objects.lookup objectId

@[simp] theorem sessionId_touch (s : ClientSession) (now : ℕ) : (s.touch now).sessionId = s.sessionId := rfl

@[simp] theorem sessionId_setStream (s : ClientSession) (streamId : UInt8) (st : StreamState) :
    (s.setStream streamId st).sessionId = s.sessionId := rfl

@[simp] theorem sessionId_addObject (s : ClientSession) (obj : XrceObject) :
    (s.addObject obj).sessionId = s.sessionId := rfl

@[simp] theorem sessionId_removeObject (s : ClientSession) (objectId : UInt16) :
    (s.removeObject objectId).1.sessionId = s.sessionId := rfl

@[simp] theorem sessionId_stream (s : ClientSession) (streamId : UInt8) :
    (s.stream streamId).2.sessionId = s.sessionId := by
  unfold stream
  split <;> rfl

end ClientSession

/-! ## The session table -/

/-- `SessionTable`. -/
structure SessionTable where
  sessions : AList (fun _ : UInt8 => ClientSession)
  maxClients : ℕ
  timeoutMs : ℕ
  nextSessionId : UInt8

namespace SessionTable

/-- `SessionTable::new`: id 0 is reserved. -/
def new (maxClients timeoutMs : ℕ) : SessionTable := ⟨∅, maxClients, timeoutMs, 1⟩

/-- `SessionTable::len`. -/
def len (t : SessionTable) : ℕ := t.sessions.keys.length

/-- `SessionTable::get` (and the lookup of `get_mut`). -/
def get (t : SessionTable) (sessionId : UInt8) : Option ClientSession := t.sessions.lookup sessionId

/-- Store a session found by `get_mut` after the caller changed it. -/
def put (t : SessionTable) (sessionId : UInt8) (s : ClientSession) : SessionTable :=
  {t with sessions := t.sessions.insert sessionId s}

/-- `get_mut(session_id)` and a change of the session it finds, if any. -/
def update (t : SessionTable) (sessionId : UInt8) (f : ClientSession → ClientSession) : SessionTable :=
  match t.get sessionId with
  | some s => t.put sessionId (f s)
  | none => t

/-- `SessionTable::remove`. -/
def remove (t : SessionTable) (sessionId : UInt8) : SessionTable × Option ClientSession :=
  ({t with sessions := t.sessions.erase sessionId}, t.sessions.lookup sessionId)

/-- The successor of an id in the walk of `create_session`: `255` wraps to `1`. -/
def nextId (id : UInt8) : UInt8 := if id = 255 then 1 else id + 1

/-- The `loop` of `create_session`, started at `start`: take the id `next_session_id`, move
`next_session_id` on, and stop at a vacant id or when the walk is back at `start`. -/
def allocate (now : ℕ) (clientKey : ByteArr 4) (start : UInt8) :
    ℕ → SessionTable → SessionTable × Except XrceError UInt8
  | 0, t => (t, .error .SessionFull)
  | fuel + 1, t =>
    let id := t.nextSessionId
    let t := {t with nextSessionId := nextId t.nextSessionId}
    match t.sessions.lookup id with
    | none => ({t with sessions := t.sessions.insert id (ClientSession.new id clientKey now)}, .ok id)
    | some _ =>
      if t.nextSessionId = start then (t, .error .SessionFull)
      else allocate now clientKey start fuel t

/-- `SessionTable::create_session`. -/
def createSession (t : SessionTable) (now : ℕ) (clientKey : ByteArr 4) :
    SessionTable × Except XrceError UInt8 :=
  if t.len ≥ t.maxClients then (t, .error .SessionFull)
  else allocate now clientKey t.nextSessionId 255 t

/-- `SessionTable::evict_expired`: the ids of the sessions idle for longer than the timeout,
removed from the table. -/
def evictExpired (t : SessionTable) (now : ℕ) : SessionTable × List UInt8 :=
  let expired := (t.sessions.entries.filter fun e => e.2.isExpired now t.timeoutMs).map (·.1)
  ({t with sessions := expired.foldl (fun m id => m.erase id) t.sessions}, expired)

/-! ### Lookups after each operation -/

@[simp] theorem get_put_self (t : SessionTable) (sid : UInt8) (s : ClientSession) :
    (t.put sid s).get sid = some s :=
  AList.lookup_insert _

theorem get_put_ne (t : SessionTable) {sid sid' : UInt8} (s : ClientSession) (h : sid' ≠ sid) :
    (t.put sid s).get sid' = t.get sid' :=
  AList.lookup_insert_ne h

@[simp] theorem maxClients_put (t : SessionTable) (sid : UInt8) (s : ClientSession) :
    (t.put sid s).maxClients = t.maxClients := rfl

@[simp] theorem nextSessionId_put (t : SessionTable) (sid : UInt8) (s : ClientSession) :
    (t.put sid s).nextSessionId = t.nextSessionId := rfl

/-! ### Changes confined to one session -/

/-- `t'` holds the same sessions as `t` under every id but `sid`. -/
def AgreeOff (t t' : SessionTable) (sid : UInt8) : Prop := ∀ sid', sid' ≠ sid → t'.get sid' = t.get sid'

theorem AgreeOff.refl (t : SessionTable) (sid : UInt8) : t.AgreeOff t sid := fun _ _ => rfl

theorem AgreeOff.trans {t t' t'' : SessionTable} {sid : UInt8} (h : t.AgreeOff t' sid)
    (h' : t'.AgreeOff t'' sid) : t.AgreeOff t'' sid :=
  fun sid' hne => (h' sid' hne).trans (h sid' hne)

theorem agreeOff_put (t : SessionTable) (sid : UInt8) (s : ClientSession) : t.AgreeOff (t.put sid s) sid :=
  fun _ hne => get_put_ne t s hne

theorem agreeOff_update (t : SessionTable) (sid : UInt8) (f : ClientSession → ClientSession) :
    t.AgreeOff (t.update sid f) sid := by
  unfold update
  split
  · exact agreeOff_put t sid _
  · exact AgreeOff.refl t sid

theorem nextId_ne_zero (id : UInt8) : nextId id ≠ 0 := by
  unfold nextId
  split
  · decide
  · grind

/-- The walk never changes a session already in the table. -/
theorem get_allocate_of_some (now : ℕ) (clientKey : ByteArr 4) (start : UInt8) (fuel : ℕ)
    (t : SessionTable) {sid : UInt8} {s : ClientSession} (hs : t.get sid = some s) :
    (allocate now clientKey start fuel t).1.get sid = some s := by
  induction fuel generalizing t with
  | zero => exact hs
  | succ fuel ih =>
    unfold allocate
    dsimp only
    split
    · rename_i hvacant
      have hne : sid ≠ t.nextSessionId := by
        rintro rfl
        simp only [get] at hs
        rw [hs] at hvacant
        cases hvacant
      exact (AList.lookup_insert_ne hne).trans hs
    · split
      · exact hs
      · exact ih _ hs

theorem get_createSession_of_some (t : SessionTable) (now : ℕ) (clientKey : ByteArr 4)
    {sid : UInt8} {s : ClientSession} (hs : t.get sid = some s) :
    (t.createSession now clientKey).1.get sid = some s := by
  unfold createSession
  split
  · exact hs
  · exact get_allocate_of_some now clientKey _ 255 t hs

/-! ### Well-formed tables -/

/-- What every reachable table satisfies. -/
structure WellFormed (t : SessionTable) : Prop where
  keyed : ∀ sid s, t.get sid = some s → s.sessionId = sid
  nonzero : ∀ sid s, t.get sid = some s → sid ≠ 0
  next_ne_zero : t.nextSessionId ≠ 0
  bounded : t.len ≤ t.maxClients

theorem wellFormed_new (maxClients timeoutMs : ℕ) : (new maxClients timeoutMs).WellFormed where
  keyed := by simp [new, get]
  nonzero := by simp [new, get]
  next_ne_zero := by
    show (1 : UInt8) ≠ 0
    decide
  bounded := by simp [new, len]

theorem len_insert_of_lookup_none {t : SessionTable} {id : UInt8} (s : ClientSession)
    (h : t.sessions.lookup id = none) :
    (t.sessions.insert id s).keys.length = t.len + 1 := by
  have hnot : id ∉ t.sessions.keys := AList.mem_keys.not.mpr (AList.lookup_eq_none.mp h)
  rw [AList.keys_insert, List.erase_of_not_mem hnot]
  rfl

/-- One turn of the walk keeps the table well formed while there is room for a session. -/
theorem WellFormed.allocate {t : SessionTable} (h : t.WellFormed) (hroom : t.len < t.maxClients)
    (now : ℕ) (clientKey : ByteArr 4) (start : UInt8) (fuel : ℕ) :
    (allocate now clientKey start fuel t).1.WellFormed := by
  induction fuel generalizing t with
  | zero => exact h
  | succ fuel ih =>
    have hstep : ({t with nextSessionId := nextId t.nextSessionId} : SessionTable).WellFormed :=
      ⟨h.keyed, h.nonzero, nextId_ne_zero _, h.bounded⟩
    unfold SessionTable.allocate
    dsimp only
    split
    · rename_i hvacant
      refine ⟨?_, ?_, nextId_ne_zero _, ?_⟩
      · intro sid s hs
        by_cases hsid : sid = t.nextSessionId
        · subst hsid
          simp only [get, AList.lookup_insert, Option.some.injEq] at hs
          rw [← hs]
          rfl
        · exact h.keyed sid s ((AList.lookup_insert_ne hsid).symm.trans hs)
      · intro sid s hs
        by_cases hsid : sid = t.nextSessionId
        · rw [hsid]
          exact h.next_ne_zero
        · exact h.nonzero sid s ((AList.lookup_insert_ne hsid).symm.trans hs)
      · have hlen := len_insert_of_lookup_none (ClientSession.new t.nextSessionId clientKey now) hvacant
        simp only [len] at hlen ⊢
        rw [hlen]
        exact hroom
    · split
      · exact hstep
      · exact ih hstep hroom

theorem WellFormed.createSession {t : SessionTable} (h : t.WellFormed) (now : ℕ)
    (clientKey : ByteArr 4) : (t.createSession now clientKey).1.WellFormed := by
  unfold SessionTable.createSession
  split
  · exact h
  · exact h.allocate (by omega) now clientKey _ 255

theorem WellFormed.put {t : SessionTable} (h : t.WellFormed) {sid : UInt8} {s s' : ClientSession}
    (hs : t.get sid = some s) (hid : s'.sessionId = s.sessionId) : (t.put sid s').WellFormed where
  keyed sid' s'' hs'' := by
    by_cases hsid : sid' = sid
    · subst hsid
      simp only [get_put_self, Option.some.injEq] at hs''
      rw [← hs'', hid]
      exact h.keyed _ _ hs
    · exact h.keyed sid' s'' ((get_put_ne t s' hsid).symm.trans hs'')
  nonzero sid' s'' hs'' := by
    by_cases hsid : sid' = sid
    · rw [hsid]
      exact h.nonzero sid s hs
    · exact h.nonzero sid' s'' ((get_put_ne t s' hsid).symm.trans hs'')
  next_ne_zero := h.next_ne_zero
  bounded := by
    have hmem : sid ∈ t.sessions.keys :=
      AList.mem_keys.mpr (AList.lookup_isSome.mp (by simp only [get] at hs; simp [hs]))
    have hlen := List.length_erase_of_mem hmem
    have hpos := List.length_pos_of_mem hmem
    have hbound := h.bounded
    simp only [len] at hbound
    simp only [SessionTable.put, len, AList.keys_insert, List.length_cons]
    omega

theorem WellFormed.update {t : SessionTable} (h : t.WellFormed) (sid : UInt8)
    {f : ClientSession → ClientSession} (hf : ∀ s, (f s).sessionId = s.sessionId) :
    (t.update sid f).WellFormed := by
  unfold SessionTable.update
  split
  · rename_i s hs
    exact h.put hs (hf s)
  · exact h

theorem get_evictExpired (t : SessionTable) (now : ℕ) (sid : UInt8) :
    (t.evictExpired now).1.get sid =
      if sid ∈ (t.evictExpired now).2 then none else t.get sid :=
  AList.lookup_foldl_erase _ _ _

theorem WellFormed.evictExpired {t : SessionTable} (h : t.WellFormed) (now : ℕ) :
    (t.evictExpired now).1.WellFormed where
  keyed sid s hs := by
    rw [get_evictExpired] at hs
    split at hs
    · cases hs
    · exact h.keyed sid s hs
  nonzero sid s hs := by
    rw [get_evictExpired] at hs
    split at hs
    · cases hs
    · exact h.nonzero sid s hs
  next_ne_zero := h.next_ne_zero
  bounded := le_trans (AList.length_keys_foldl_erase_le _ _) h.bounded

end SessionTable

end Hdds.Xrce
