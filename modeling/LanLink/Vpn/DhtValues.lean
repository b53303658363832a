import LanLink.Vpn.DhtSearch
import LanLink.Vpn.ParserSafety

/-! The lifetime of stored values. A value expires at the sum of two 64-bit words, one
of which comes from the network. In a build with checks the sum aborts when it
overflows, in one without it wraps around. -/
namespace LanLink.Vpn
open Words Bits Maps
open LanLink.Chunk (slice)

namespace Values
variable (checks : Bool) (sha256 : Bytes → NodeID)

def isExpired (v : ValueEntry) (now : UInt64) : Option Bool :=
  (addWord checks 64 v.createdAt.toNat v.ttl.toNat).map fun expiry => expiry ≤ now.toNat

def getValueByHash (m : DhtManager) (keyHash : NodeID) (now : UInt64) :
    Option (Option ValueEntry) :=
  match m.values.lookup keyHash with
  | none => some none
  | some v => (isExpired checks v now).map fun expired => if expired then none else some v

def getValue (m : DhtManager) (key : Bytes) (now : UInt64) : Option (Option ValueEntry) :=
  getValueByHash checks m (sha256 key) now

/-- The clock is read for every value. -/
def cleanupValues (m : DhtManager) (clock : NodeID → UInt64) : Option (DhtManager × Nat) :=
  if m.values.entries.all fun e => (isExpired checks e.2 (clock e.1)).isSome then
    let values := retain (fun keyHash v => isExpired checks v (clock keyHash) = some false) m.values
    some ({ m with values }, m.values.entries.length - values.entries.length)
  else none

end Values

/-- What a put message asks to store. -/
structure PutRequest where
  key : Bytes
  value : Bytes
  ttl : UInt64
  deriving DecidableEq

/-- The request at the front of the data, if they are long enough for its lengths. -/
def readPut (data : Bytes) : Option PutRequest :=
  let keyLen := ofBigEndian (data.take 2)
  let valueLen := ofBigEndian ((data.drop (2 + keyLen)).take 4)
  if data.length < 2 ∨ data.length < 2 + keyLen + 4 ∨
      data.length < 2 + keyLen + 4 + valueLen + 8 then none
  else
    let ttl := ofBigEndian ((data.drop (2 + keyLen + 4 + valueLen)).take 8)
    some ⟨(data.drop 2).take keyLen, (data.drop (2 + keyLen + 4)).take valueLen, ttl.toUInt64⟩

def readPutMessage : Bytes → Option PutRequest
  | [] => none
  | tag :: data => if DhtMessageType.fromU8 tag = some .put then readPut data else none

/-- The key that a get message asks for. -/
def readGetMessage : Bytes → Option NodeID
  | [] => none
  | tag :: data => if DhtMessageType.fromU8 tag = some .get then nodeIdOf (data.take 32) else none

/-- Everything that uses the values, or the table of nodes beside them. -/
inductive ValueAction where
  | operation (action : DhtAction)
  | putValue (key value : Bytes) (ttl now : UInt64)
  | cleanupValues (clock : NodeID → UInt64)

section
variable (sha256 : Bytes → NodeID)

/-- The value that an action stores, with the time and the lifetime it has then. -/
def ValueAction.stores : ValueAction → Option (NodeID × ValueEntry)
  | .operation (.processMessage _ payload _ nowSecs) =>
    (readPutMessage payload).map fun request =>
      (sha256 request.key, ⟨request.value, nowSecs, request.ttl⟩)
  | .putValue key value ttl now => some (sha256 key, ⟨value, now, ttl⟩)
  | _ => none

end

/-- The value that a message asks for, and the time then. -/
def DhtAction.asks : DhtAction → Option (NodeID × UInt64)
  | .processMessage _ payload _ nowSecs => (readGetMessage payload).map fun keyHash => (keyHash, nowSecs)
  | _ => none

/-- The values with the one that an action stores. -/
def store (values : Map NodeID ValueEntry) : Option (NodeID × ValueEntry) → Map NodeID ValueEntry
  | some (keyHash, v) => values.insert keyHash v
  | none => values

/-- The lifetime of a value, in numbers without a bound. -/
def ValueEntry.lives (v : ValueEntry) (now : UInt64) : Bool :=
  now.toNat < v.createdAt.toNat + v.ttl.toNat

/-- A node, and the values that should be there: those that were stored, without the
ones that were replaced or were dead at a cleanup. -/
structure Stored where
  node : DhtManager
  record : Map NodeID ValueEntry

section
variable (checks : Bool) (sha256 : Bytes → NodeID)

/-- A message that asks for a value whose expiry overflows aborts in a build with
checks. -/
def DhtManager.perform (m : DhtManager) : ValueAction → Option DhtManager
  | .operation action =>
    match action.asks with
    | some (keyHash, now) => do
      let _ ← Values.getValueByHash checks m keyHash now
      m.step sha256 action
    | none => m.step sha256 action
  | .putValue key value ttl now => some (m.putValue sha256 key value ttl now)
  | .cleanupValues clock => (Values.cleanupValues checks m clock).map Prod.fst

def recorded (record : Map NodeID ValueEntry) : ValueAction → Map NodeID ValueEntry
  | .cleanupValues clock => retain (fun keyHash v => v.lives (clock keyHash)) record
  | action => store record (action.stores sha256)

def Stored.step (s : Stored) (action : ValueAction) : Option Stored := do
  let node ← s.node.perform checks sha256 action
  return ⟨node, recorded sha256 s.record action⟩

/-- The values are those of the record, a value is returned from its time on exactly
while it lives, and a cleanup removes exactly those that are not. Nothing aborts. -/
structure Agrees (s : Stored) : Prop where
  same : ∀ keyHash, s.node.values.lookup keyHash = s.record.lookup keyHash
  byHash : ∀ keyHash v now, s.record.lookup keyHash = some v → v.createdAt ≤ now →
    Values.getValueByHash checks s.node keyHash now = some (if v.lives now then some v else none)
  byKey : ∀ key v now, s.record.lookup (sha256 key) = some v → v.createdAt ≤ now →
    Values.getValue checks sha256 s.node key now = some (if v.lives now then some v else none)
  cleanup : ∀ clock : NodeID → UInt64,
    (∀ keyHash v, s.record.lookup keyHash = some v → v.createdAt ≤ clock keyHash) →
    ∃ after count, Values.cleanupValues checks s.node clock = some (after, count) ∧
      ∀ keyHash, after.values.lookup keyHash =
        (s.record.lookup keyHash).filter fun v => v.lives (clock keyHash)

end

/-- The expiry of a value is a 64-bit word. -/
def ValueEntry.Fits (v : ValueEntry) : Prop := v.createdAt.toNat + v.ttl.toNat < 2 ^ 64

/-- What an action stores at a time expires at a 64-bit word. -/
def ValueAction.Fits (sha256 : Bytes → NodeID) (action : ValueAction) : Prop :=
  ∀ keyHash v, action.stores sha256 = some (keyHash, v) → v.Fits

section
variable {checks : Bool} {sha256 : Bytes → NodeID}

theorem isExpired_of_fits {v : ValueEntry} (fits : v.Fits) (now : UInt64) :
    Values.isExpired checks v now = some (!v.lives now) := by
  have sum : addWord checks 64 v.createdAt.toNat v.ttl.toNat =
      some (v.createdAt.toNat + v.ttl.toNat) := addWord_of_lt fits
  simp only [Values.isExpired, sum, Option.map_some, ValueEntry.lives, ← decide_not, Nat.not_lt]

/-- A value whose expiry overflows is dead when it is stored, or aborts the read. -/
theorem isExpired_of_not_fits {v : ValueEntry} (overflow : ¬ v.Fits) :
    Values.isExpired checks v v.createdAt ≠ some false := by
  have large : 2 ^ 64 ≤ v.createdAt.toNat + v.ttl.toNat := Nat.le_of_not_lt overflow
  have created := v.createdAt.toNat_lt
  have lifetime := v.ttl.toNat_lt
  rw [Values.isExpired]
  cases checks with
  | true => simp [addWord_checked large]
  | false =>
    have wrapped : (v.createdAt.toNat + v.ttl.toNat) % 2 ^ 64 ≤ v.createdAt.toNat := by omega
    simpa [addWord_unchecked] using wrapped

theorem lives_of_not_fits {v : ValueEntry} (overflow : ¬ v.Fits) : v.lives v.createdAt = true := by
  have large : 2 ^ 64 ≤ v.createdAt.toNat + v.ttl.toNat := Nat.le_of_not_lt overflow
  have created := v.createdAt.toNat_lt
  exact decide_eq_true (by omega)

theorem getValueByHash_of_fits {m : DhtManager} (found : m.values.lookup keyHash = some v)
    (fits : v.Fits) (now : UInt64) :
    Values.getValueByHash checks m keyHash now = some (if v.lives now then some v else none) := by
  simp only [Values.getValueByHash, found, isExpired_of_fits fits, Option.map_some]
  cases v.lives now with
  | true => rfl
  | false => rfl

theorem cleanupValues_of_fits {m : DhtManager}
    (fits : ∀ keyHash v, m.values.lookup keyHash = some v → v.Fits) (clock : NodeID → UInt64) :
    ∃ count, Values.cleanupValues checks m clock =
      some ({ m with values := retain (fun keyHash v => v.lives (clock keyHash)) m.values }, count) := by
  have known (e : Σ _ : NodeID, ValueEntry) (member : e ∈ m.values.entries) :
      Values.isExpired checks e.2 (clock e.1) = some (!e.2.lives (clock e.1)) :=
    isExpired_of_fits (fits e.1 e.2 (AList.mem_lookup_iff.mpr member)) _
  have all : m.values.entries.all (fun e => (Values.isExpired checks e.2 (clock e.1)).isSome) = true := by
    apply List.all_eq_true.mpr
    intro e member
    rw [known e member]
    rfl
  have kept : retain (fun keyHash v => Values.isExpired checks v (clock keyHash) = some false) m.values =
      retain (fun keyHash v => v.lives (clock keyHash)) m.values := by
    apply AList.ext
    apply List.filter_congr
    intro e member
    dsimp only
    rw [known e member]
    cases e.2.lives (clock e.1) with
    | true => rfl
    | false => rfl
  rw [Values.cleanupValues]
  rw [if_pos all, kept]
  exact ⟨_, rfl⟩

/-- The lifetimes of a record that agrees with the values are exactly those that the
code can compute. -/
theorem agrees_iff {s : Stored}
    (same : ∀ keyHash, s.node.values.lookup keyHash = s.record.lookup keyHash) :
    Agrees checks sha256 s ↔ ∀ keyHash v, s.record.lookup keyHash = some v → v.Fits := by
  constructor
  · intro agrees keyHash v found
    by_contra overflow
    have read := agrees.byHash keyHash v v.createdAt found (UInt64.le_refl _)
    have present := (same keyHash).trans found
    rw [lives_of_not_fits overflow] at read
    simp only [Values.getValueByHash, present, if_true, Option.map_eq_some_iff] at read
    obtain ⟨expired, computed, result⟩ := read
    cases expired with
    | true => cases result
    | false => exact isExpired_of_not_fits overflow computed
  · intro fits
    have stored (keyHash : NodeID) (v : ValueEntry)
        (found : s.node.values.lookup keyHash = some v) : v.Fits :=
      fits keyHash v ((same keyHash).symm.trans found)
    have byHash (keyHash : NodeID) (v : ValueEntry) (now : UInt64)
        (found : s.record.lookup keyHash = some v) :
        Values.getValueByHash checks s.node keyHash now = some (if v.lives now then some v else none) :=
      getValueByHash_of_fits ((same keyHash).trans found) (fits keyHash v found) now
    constructor
    · exact same
    · intro keyHash v now found _
      exact byHash keyHash v now found
    · intro key v now found _
      exact byHash (sha256 key) v now found
    · intro clock _
      obtain ⟨count, cleaned⟩ : ∃ count, Values.cleanupValues checks s.node clock =
          some (_, count) := cleanupValues_of_fits stored clock
      refine ⟨_, count, cleaned, fun keyHash => ?_⟩
      dsimp only
      rw [lookup_retain, same keyHash]

/-- Without checks a read is the one that answers messages. -/
theorem getValueByHash_unchecked (m : DhtManager) (keyHash : NodeID) (now : UInt64) :
    Values.getValueByHash false m keyHash now = some (m.getValueByHash keyHash now) := by
  have wraps (v : ValueEntry) : Values.isExpired false v now = some (v.isExpired now) := by
    have sum : addWord false 64 v.createdAt.toNat v.ttl.toNat =
        some (v.createdAt + v.ttl).toNat := by
      rw [addWord_unchecked, UInt64.toNat_add]
    simp only [Values.isExpired, sum, Option.map_some, ValueEntry.isExpired, UInt64.le_iff_toNat_le]
  rw [Values.getValueByHash, DhtManager.getValueByHash]
  cases m.values.lookup keyHash with
  | none => rfl
  | some v =>
    dsimp only
    rw [wraps v, Option.map_some, Option.filter_some]
    cases v.isExpired now with
    | true => rfl
    | false => rfl

/-- A put message stores what it asks for, and one that is too short nothing. -/
theorem handlePut_readPut (m : DhtManager) (data : Bytes) (now : UInt64) :
    m.handlePut sha256 data now = some (match readPut data with
      | some request => m.putValue sha256 request.key request.value request.ttl now
      | none => m) := by
  rw [DhtManager.handlePut, readPut]
  by_cases short : data.length < 2
  · rw [if_pos short, if_pos (.inl short)]
  rw [if_neg short, readU16_eq (by omega), List.drop_zero, Option.bind_eq_bind, Option.bind_some]
  generalize ofBigEndian (data.take 2) = keyLen
  by_cases noKey : data.length < 2 + keyLen + 4
  · rw [if_pos noKey, if_pos (.inr (.inl noKey))]
  rw [if_neg noKey, slice_eq (by omega) (by omega), slice_eq (by omega) (by omega)]
  simp only [Option.bind_eq_bind, Option.bind_some, Nat.add_sub_cancel_left]
  generalize ofBigEndian ((data.drop (2 + keyLen)).take 4) = valueLen
  by_cases noValue : data.length < 2 + keyLen + 4 + valueLen + 8
  · rw [if_pos noValue, if_pos (.inr (.inr noValue))]
  rw [if_neg noValue, slice_eq (by omega) (by omega), slice_eq (by omega) (by omega),
    if_neg (by omega)]
  simp only [Option.bind_some, Nat.add_sub_cancel_left]
  rfl

@[simp] theorem insertNode_values (m : DhtManager) (nodeId : NodeID) (addr : String) (now : Nat) :
    (m.insertNode nodeId addr now).1.values = m.values := by
  rw [DhtManager.insertNode]
  split
  · rfl
  · rfl

@[simp] theorem touchNode_values (m : DhtManager) (nodeId : NodeID) (now : Nat) :
    (m.touchNode nodeId now).1.values = m.values := by
  rw [DhtManager.touchNode]
  split
  · rfl
  · rfl

@[simp] theorem removeNode_values (m : DhtManager) (nodeId : NodeID) :
    (m.removeNode nodeId).1.values = m.values := by
  rw [DhtManager.removeNode]
  split
  · rfl
  · rfl

theorem foldl_insertNode_values {nodes : List T} (m : DhtManager) (nodeId : T → NodeID)
    (addr : T → String) (now : Nat) :
    (nodes.foldl (fun m node => (m.insertNode (nodeId node) (addr node) now).1) m).values =
      m.values := by
  induction nodes generalizing m with
  | nil => rfl
  | cons node rest ih => rw [List.foldl_cons, ih, insertNode_values]

theorem processMessage_values {m : DhtManager}
    (processed : m.processMessage sha256 senderId payload now nowSecs = some (after, answers)) :
    after.values = store m.values
      (ValueAction.stores sha256 (.operation (.processMessage senderId payload now nowSecs))) := by
  unfold DhtManager.processMessage at processed
  unfold ValueAction.stores readPutMessage
  cases payload with
  | nil =>
    cases processed
    rfl
  | cons tag data =>
    dsimp only at processed ⊢
    cases type : DhtMessageType.fromU8 tag with
    | none =>
      rw [type] at processed
      cases processed
      rfl
    | some kind =>
      rw [type] at processed
      cases kind with
      | ping =>
        cases processed
        simp [store]
      | pong =>
        cases processed
        simp [store]
      | findNode =>
        dsimp only at processed
        split at processed
        · cases processed
          rfl
        · simp only [Option.bind_eq_bind, Option.bind_eq_some_iff] at processed
          obtain ⟨bytes, -, target, -, done⟩ := processed
          cases done
          rfl
      | nodes =>
        simp only [Option.bind_eq_bind, Option.bind_eq_some_iff] at processed
        obtain ⟨nodes, -, done⟩ := processed
        cases done
        exact foldl_insertNode_values m Prod.fst Prod.snd now
      | put =>
        dsimp only at processed
        rw [handlePut_readPut] at processed
        cases processed
        rw [if_pos rfl]
        cases readPut data with
        | none => rfl
        | some request => rfl
      | get =>
        dsimp only at processed
        split at processed
        · cases processed
          rfl
        · simp only [Option.bind_eq_bind, Option.bind_eq_some_iff] at processed
          obtain ⟨bytes, -, keyHash, -, processed⟩ := processed
          split at processed
          · cases processed
            rfl
          · cases processed
            rfl
      | value =>
        cases processed
        rfl

theorem step_values {m : DhtManager} (stepped : m.step sha256 action = some after) :
    after.values = store m.values (ValueAction.stores sha256 (.operation action)) := by
  cases action with
  | insertNode nodeId addr now =>
    cases stepped
    exact insertNode_values m nodeId addr now
  | touchNode nodeId now =>
    cases stepped
    exact touchNode_values m nodeId now
  | removeNode nodeId =>
    cases stepped
    exact removeNode_values m nodeId
  | refresh now =>
    cases stepped
    rfl
  | bootstrapFromNodes nodes now =>
    cases stepped
    exact foldl_insertNode_values m _ _ now
  | processMessage senderId payload now nowSecs =>
    obtain ⟨⟨node, answers⟩, processed, rfl⟩ := Option.map_eq_some_iff.mp stepped
    exact processMessage_values processed

/-- An action takes the step of the table of nodes, stores a value, or cleans up. -/
theorem perform_cases {m : DhtManager} (performed : m.perform checks sha256 action = some after) :
    (∃ operation, action = .operation operation ∧ m.step sha256 operation = some after) ∨
      (∃ key value ttl now, action = .putValue key value ttl now ∧
        after = m.putValue sha256 key value ttl now) ∨
      ∃ clock count, action = .cleanupValues clock ∧
        Values.cleanupValues checks m clock = some (after, count) := by
  cases action with
  | operation operation =>
    simp only [DhtManager.perform] at performed
    split at performed
    · obtain ⟨-, -, stepped⟩ := Option.bind_eq_some_iff.mp performed
      exact .inl ⟨operation, rfl, stepped⟩
    · exact .inl ⟨operation, rfl, performed⟩
  | putValue key value ttl now => exact .inr (.inl ⟨key, value, ttl, now, rfl, (Option.some.inj performed).symm⟩)
  | cleanupValues clock =>
    obtain ⟨⟨node, count⟩, cleaned, rfl⟩ := Option.map_eq_some_iff.mp performed
    exact .inr (.inr ⟨clock, count, rfl, cleaned⟩)

theorem cleanupValues_frame {m : DhtManager}
    (cleaned : Values.cleanupValues checks m clock = some (after, count)) :
    ∃ values, after = { m with values } := by
  rw [Values.cleanupValues] at cleaned
  split at cleaned
  · cases cleaned
    exact ⟨_, rfl⟩
  · cases cleaned

theorem Placed.perform (placed : Placed localId m)
    (performed : m.perform checks sha256 action = some after) : Placed localId after := by
  rcases perform_cases performed with
    ⟨operation, -, stepped⟩ | ⟨key, value, ttl, now, -, rfl⟩ | ⟨clock, count, -, cleaned⟩
  · obtain ⟨node, same, kept⟩ := placed.step sha256 operation
    cases Option.some.inj (same.symm.trans stepped)
    exact kept
  · exact ⟨placed.own, placed.holds⟩
  · obtain ⟨values, rfl⟩ := cleanupValues_frame cleaned
    exact ⟨placed.own, placed.holds⟩

/-- Where every expiry is a word, nothing aborts. -/
theorem perform_total (placed : Placed localId m)
    (fits : ∀ keyHash v, m.values.lookup keyHash = some v → v.Fits) (action : ValueAction) :
    ∃ after, m.perform checks sha256 action = some after := by
  cases action with
  | operation operation =>
    obtain ⟨after, stepped, -⟩ := placed.step sha256 operation
    simp only [DhtManager.perform]
    split
    · rename_i keyHash now _
      cases found : m.values.lookup keyHash with
      | none => exact ⟨after, by simp [Values.getValueByHash, found, stepped]⟩
      | some v =>
        have read : Values.getValueByHash checks m keyHash now = some _ :=
          getValueByHash_of_fits found (fits keyHash v found) now
        exact ⟨after, by simp [read, stepped]⟩
    · exact ⟨after, stepped⟩
  | putValue key value ttl now => exact ⟨_, rfl⟩
  | cleanupValues clock =>
    obtain ⟨count, cleaned⟩ : ∃ count, Values.cleanupValues checks m clock = some (_, count) :=
      cleanupValues_of_fits fits clock
    exact ⟨_, by rw [DhtManager.perform, cleaned, Option.map_some]⟩

theorem lookup_store {values record : Map NodeID ValueEntry}
    (same : ∀ keyHash, values.lookup keyHash = record.lookup keyHash)
    (stored : Option (NodeID × ValueEntry)) (keyHash : NodeID) :
    (store values stored).lookup keyHash = (store record stored).lookup keyHash := by
  cases stored with
  | none => exact same keyHash
  | some put =>
    by_cases this : keyHash = put.1
    · subst this
      exact (AList.lookup_insert values).trans (AList.lookup_insert record).symm
    · exact (AList.lookup_insert_ne this).trans
        ((same keyHash).trans (AList.lookup_insert_ne this).symm)

theorem fits_store_iff {record : Map NodeID ValueEntry} (stored : Option (NodeID × ValueEntry))
    (fits : ∀ keyHash v, record.lookup keyHash = some v → v.Fits) :
    (∀ keyHash v, (store record stored).lookup keyHash = some v → v.Fits) ↔
      ∀ keyHash v, stored = some (keyHash, v) → v.Fits := by
  constructor
  · rintro all keyHash v rfl
    exact all keyHash v (AList.lookup_insert record)
  · intro new keyHash v found
    cases stored with
    | none => exact fits keyHash v found
    | some put =>
      by_cases this : keyHash = put.1
      · subst this
        cases (AList.lookup_insert record).symm.trans found
        exact new _ _ rfl
      · exact fits keyHash v ((AList.lookup_insert_ne this).symm.trans found)

/-- A step keeps the agreement exactly when what it stores fits. -/
theorem agrees_step {s t : Stored} (agrees : Agrees checks sha256 s)
    (stepped : s.step checks sha256 action = some t) :
    Agrees checks sha256 t ↔ action.Fits sha256 := by
  obtain ⟨node, performed, done⟩ := Option.bind_eq_some_iff.mp stepped
  cases done
  have same := agrees.same
  have fits := (agrees_iff same).mp agrees
  rcases perform_cases performed with
    ⟨operation, rfl, taken⟩ | ⟨key, value, ttl, now, rfl, rfl⟩ | ⟨clock, count, rfl, cleaned⟩
  · have stores := step_values taken
    refine (agrees_iff fun keyHash => ?_).trans (fits_store_iff _ fits)
    dsimp only
    rw [stores]
    exact lookup_store same _ keyHash
  · refine (agrees_iff fun keyHash => ?_).trans (fits_store_iff _ fits)
    exact lookup_store same (some (sha256 key, ⟨value, now, ttl⟩)) keyHash
  · have stored (keyHash : NodeID) (v : ValueEntry)
        (found : s.node.values.lookup keyHash = some v) : v.Fits :=
      fits keyHash v ((same keyHash).symm.trans found)
    obtain ⟨number, expected⟩ : ∃ number, Values.cleanupValues checks s.node clock =
        some (_, number) := cleanupValues_of_fits stored clock
    cases Option.some.inj (expected.symm.trans cleaned)
    refine iff_of_true ((agrees_iff fun keyHash => ?_).mpr ?_) ?_
    · simp only [recorded, lookup_retain, same keyHash]
    · intro keyHash v found
      rw [recorded, lookup_retain] at found
      exact fits keyHash v (Option.filter_eq_some_iff.mp found).1
    · rintro keyHash v nothing
      cases nothing

end

/-- Every request that the lengths of the format can write is read back. -/
theorem readPut_putPayload (keyFits : key.length < 256 ^ 2) (valueFits : value.length < 256 ^ 4)
    (ttl : UInt64) : readPut (putPayload key value ttl) = some ⟨key, value, ttl⟩ := by
  have ttlFits : ttl.toNat < 256 ^ 8 := ttl.toNat_lt
  have keyLen : ofBigEndian ((putPayload key value ttl).take 2) = key.length := by
    rw [putPayload, List.take_left' (bigEndian_length 2 _), ofBigEndian_bigEndian keyFits]
  have afterKey : (putPayload key value ttl).drop (2 + key.length) =
      bigEndian 4 value.length ++ (value ++ bigEndian 8 ttl.toNat) := by
    rw [putPayload, ← List.append_assoc]
    exact List.drop_left' (by simp)
  have afterSize : (putPayload key value ttl).drop (2 + key.length + 4) =
      value ++ bigEndian 8 ttl.toNat := by
    rw [← List.drop_drop, afterKey]
    exact List.drop_left' (bigEndian_length 4 _)
  have afterValue : (putPayload key value ttl).drop (2 + key.length + 4 + value.length) =
      bigEndian 8 ttl.toNat := by
    rw [← List.drop_drop, afterSize]
    exact List.drop_left' rfl
  have front : ((putPayload key value ttl).drop 2).take key.length = key := by
    rw [putPayload, List.drop_left' (bigEndian_length 2 _)]
    exact List.take_left' rfl
  have size : (putPayload key value ttl).length = 2 + key.length + 4 + value.length + 8 := by
    simp only [putPayload, List.length_append, bigEndian_length]
    omega
  have lifetime : (bigEndian 8 ttl.toNat).take 8 = bigEndian 8 ttl.toNat :=
    List.take_of_length_le (bigEndian_length 8 _).le
  rw [readPut]
  dsimp only
  rw [keyLen, afterKey, List.take_left' (bigEndian_length 4 _), ofBigEndian_bigEndian valueFits,
    if_neg (by omega), afterValue, lifetime, ofBigEndian_bigEndian ttlFits, afterSize, front,
    List.take_left' rfl]
  simp

/-- In every run of a new node, in either build, values have the lifetimes they were
stored with exactly when every value is stored with an expiry that is a 64-bit word. -/
theorem values_agree_iff (checks : Bool) (sha256 : Bytes → NodeID) (localId : NodeID)
    (actions : List ValueAction) :
    Runs.Always (Stored.step checks sha256) (Agrees checks sha256) ⟨.new localId, ∅⟩ actions ↔
      Runs.Meets (Stored.step checks sha256) (fun _ action => action.Fits sha256)
        ⟨.new localId, ∅⟩ actions := by
  apply Runs.always_iff_of_aborts (I := fun s => Placed localId s.node)
  · intro s action t placed _ stepped
    obtain ⟨node, performed, done⟩ := Option.bind_eq_some_iff.mp stepped
    cases done
    exact placed.perform performed
  · intro s action placed agrees aborted
    have fits := (agrees_iff agrees.same).mp agrees
    obtain ⟨after, performed⟩ : ∃ after, s.node.perform checks sha256 action = some after :=
      perform_total placed
        (fun keyHash v found => fits keyHash v ((agrees.same keyHash).symm.trans found)) action
    rw [Stored.step, performed] at aborted
    cases aborted
  · intro s action t _ agrees stepped
    exact agrees_step agrees stepped
  · exact placed_new localId
  · apply (agrees_iff fun keyHash => rfl).mpr
    intro keyHash v found
    cases found

/-- A message that stores an empty value for ever. -/
def putForever (now : UInt64) : ValueAction :=
  .operation (.processMessage (idOf 1)
    (DhtMessageType.put.toU8 :: putPayload [] [] 18446744073709551615) 0 now)

theorem putForever_overflows : ¬ (putForever 1).Fits fun _ => idOf 0 := by
  intro fits
  have stores : (putForever 1).stores (fun _ => idOf 0) =
      some (idOf 0, ⟨[], 1, 18446744073709551615⟩) := by
    simp only [putForever, ValueAction.stores, readPutMessage,
      show DhtMessageType.fromU8 DhtMessageType.put.toU8 = some .put from rfl, if_true]
    rw [readPut_putPayload (by decide) (by decide)]
    rfl
  have sum : 1 + 18446744073709551615 < 2 ^ 64 := fits _ _ stores
  exact absurd sum (by decide)

/-- The largest lifetime makes a value unreadable at once, in either build. -/
theorem value_stored_forever :
    ¬ Runs.Always (Stored.step false fun _ => idOf 0) (Agrees false fun _ => idOf 0)
        ⟨.new (idOf 2), ∅⟩ [putForever 1] ∧
      ¬ Runs.Always (Stored.step true fun _ => idOf 0) (Agrees true fun _ => idOf 0)
        ⟨.new (idOf 2), ∅⟩ [putForever 1] := by
  have fails (checks : Bool) : ¬ Runs.Always (Stored.step checks fun _ => idOf 0)
      (Agrees checks fun _ => idOf 0) ⟨.new (idOf 2), ∅⟩ [putForever 1] := by
    intro always
    have none_stored (keyHash : NodeID) (v : ValueEntry)
        (found : (DhtManager.new (idOf 2)).values.lookup keyHash = some v) : v.Fits := by
      cases found
    obtain ⟨after, performed⟩ : ∃ after, (DhtManager.new (idOf 2)).perform checks
        (fun _ => idOf 0) (putForever 1) = some after :=
      perform_total (placed_new (idOf 2)) none_stored (putForever 1)
    have stepped : Stored.step checks (fun _ => idOf 0) ⟨.new (idOf 2), ∅⟩ (putForever 1) =
        some ⟨after, recorded (fun _ => idOf 0) ∅ (putForever 1)⟩ := by
      rw [Stored.step, performed]
      rfl
    exact putForever_overflows ((agrees_step always.1 stepped).mp (always.2 _ stepped))
  exact ⟨fails false, fails true⟩

end LanLink.Vpn
