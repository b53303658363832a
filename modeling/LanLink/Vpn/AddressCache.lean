import LanLink.Core.Maps
import LanLink.Core.Runs
import LanLink.Vpn.LanRouter

/-! Names of nodes, the static map and the caches before it. Every look at the clock is
the next reading of a sequence; a resolver takes as many readings as the code does. A
wrapped resolver may be a shared handle, so that its own methods can still be called. -/
namespace LanLink.Vpn
open Maps Runs

/-- In nanoseconds, as all times here. -/
def fiveMinutes : Nat := 300 * 1000000000

structure CacheEntry where
  id : NodeID
  insertedAt : Nat
  ttl : Nat
  deriving DecidableEq

def CacheEntry.isExpired (entry : CacheEntry) (now : Nat) : Bool := entry.ttl < now - entry.insertedAt

/-- What a cache answers, and the number of the next reading. -/
def getCached (clock : Nat → Nat) (cache : Map String CacheEntry) (reading : Nat) (name : String) :
    Option NodeID × Nat :=
  match cache.lookup name with
  | none => (none, reading)
  | some entry => (if entry.isExpired (clock reading) then none else some entry.id, reading + 1)

/-- The trait, its methods with the number of the first reading they take. -/
class AddressResolver (R : Type) where
  resolve (clock : Nat → Nat) (r : R) (reading : Nat) (name : String) :
    Except AddressError NodeID × R × Nat
  cache (clock : Nat → Nat) (r : R) (reading : Nat) (name : String) (id : NodeID) (ttl : Nat) :
    R × Nat
  clearCache (r : R) : R

structure MemAddressResolver where
  cache : Map String CacheEntry
  staticMap : Map String NodeID
  defaultTtl : Nat

def MemAddressResolver.withTtl (defaultTtl : Nat) : MemAddressResolver := ⟨∅, ∅, defaultTtl⟩

def MemAddressResolver.addStaticMapping (r : MemAddressResolver) (name : String) (id : NodeID) :
    MemAddressResolver :=
  { r with staticMap := r.staticMap.insert name id }

def MemAddressResolver.removeStaticMapping (r : MemAddressResolver) (name : String) :
    Option NodeID × MemAddressResolver :=
  (r.staticMap.lookup name, { r with staticMap := r.staticMap.erase name })

def MemAddressResolver.insert (clock : Nat → Nat) (r : MemAddressResolver) (reading : Nat)
    (name : String) (id : NodeID) (ttl : Nat) : MemAddressResolver × Nat :=
  ({ r with cache := r.cache.insert name ⟨id, clock reading, ttl⟩ }, reading + 1)

instance : AddressResolver MemAddressResolver where
  resolve clock r reading name :=
    match getCached clock r.cache reading name with
    | (some id, reading) => (.ok id, r, reading)
    | (none, reading) =>
      match r.staticMap.lookup name with
      | some id => (.ok id, r.insert clock reading name id r.defaultTtl)
      | none => (.error (.unknownNode name), r, reading)
  cache := MemAddressResolver.insert
  clearCache r := { r with cache := ∅ }

structure CachingResolver (R : Type) where
  inner : R
  cache : Map String CacheEntry

def CachingResolver.new (inner : R) : CachingResolver R := ⟨inner, ∅⟩

/-- The inner resolver gets the entry, too, with a reading of its own. -/
def CachingResolver.insert [AddressResolver R] (clock : Nat → Nat) (r : CachingResolver R)
    (reading : Nat) (name : String) (id : NodeID) (ttl : Nat) : CachingResolver R × Nat :=
  let (inner, next) := AddressResolver.cache clock r.inner (reading + 1) name id ttl
  (⟨inner, r.cache.insert name ⟨id, clock reading, ttl⟩⟩, next)

instance [AddressResolver R] : AddressResolver (CachingResolver R) where
  resolve clock r reading name :=
    match getCached clock r.cache reading name with
    | (some id, reading) => (.ok id, r, reading)
    | (none, reading) =>
      match AddressResolver.resolve clock r.inner reading name with
      | (.error e, inner, reading) => (.error e, { r with inner }, reading)
      | (.ok id, inner, reading) =>
        (.ok id, CachingResolver.insert clock { r with inner } reading name id fiveMinutes)
  cache := CachingResolver.insert
  clearCache r := ⟨AddressResolver.clearCache r.inner, ∅⟩

namespace AddressCache

/-- The resolver a call is made on. -/
inductive Handle where
  | plain | wrapped
  deriving DecidableEq

inductive Call where
  | addStaticMapping (name : String) (id : NodeID)
  | removeStaticMapping (name : String)
  | clearCache (handle : Handle)
  | resolve (handle : Handle) (name : String)

/-- A resolver in its wrapper, and the number of the next reading. -/
structure Resolvers where
  wrapper : CachingResolver MemAddressResolver
  reading : Nat

def Resolvers.start (defaultTtl : Nat) : Resolvers := ⟨.new (.withTtl defaultTtl), 0⟩

def Resolvers.withInner (s : Resolvers) (inner : MemAddressResolver) : Resolvers :=
  { s with wrapper := { s.wrapper with inner } }

/-- The answer of a resolve, and what it leaves. -/
def Resolvers.resolve (clock : Nat → Nat) (s : Resolvers) (name : String) :
    Handle → Except AddressError NodeID × Resolvers
  | .plain =>
    let (answer, inner, reading) := AddressResolver.resolve clock s.wrapper.inner s.reading name
    (answer, ⟨{ s.wrapper with inner }, reading⟩)
  | .wrapped =>
    let (answer, wrapper, reading) := AddressResolver.resolve clock s.wrapper s.reading name
    (answer, ⟨wrapper, reading⟩)

def step (clock : Nat → Nat) (s : Resolvers) : Call → Option Resolvers
  | .addStaticMapping name id => some (s.withInner (s.wrapper.inner.addStaticMapping name id))
  | .removeStaticMapping name => some (s.withInner (s.wrapper.inner.removeStaticMapping name).2)
  | .clearCache .plain => some (s.withInner (AddressResolver.clearCache s.wrapper.inner))
  | .clearCache .wrapped => some { s with wrapper := AddressResolver.clearCache s.wrapper }
  | .resolve handle name => some (s.resolve clock name handle).2

/-- What a static map says. -/
def mapped (staticMap : Map String NodeID) (name : String) : Except AddressError NodeID :=
  match staticMap.lookup name with
  | some id => .ok id
  | none => .error (.unknownNode name)

def Resolvers.mapped (s : Resolvers) (name : String) : Except AddressError NodeID :=
  AddressCache.mapped s.wrapper.inner.staticMap name

/-- A resolve that is called answers what the static map says. -/
def Truthful (clock : Nat → Nat) (s : Resolvers) : Call → Prop
  | .resolve handle name => (s.resolve clock name handle).1 = s.mapped name
  | _ => True

/-- Any resolve would answer what the static map says. -/
def Transparent (clock : Nat → Nat) (s : Resolvers) : Prop :=
  ∀ handle name, (s.resolve clock name handle).1 = s.mapped name

section
variable (clock : Nat → Nat)

/-- The cache has an entry that has not expired. -/
def Live (cache : Map String CacheEntry) (reading : Nat) (name : String) (id : NodeID) : Prop :=
  (getCached clock cache reading name).1 = some id

/-- A mapping is changed only while no other id is cached for its name. -/
def Settled (s : Resolvers) : Call → Prop
  | .addStaticMapping name id => ∀ cached, Live clock s.wrapper.inner.cache s.reading name cached ∨
      Live clock s.wrapper.cache s.reading name cached → cached = id
  | .removeStaticMapping name => ∀ cached, ¬ (Live clock s.wrapper.inner.cache s.reading name cached ∨
      Live clock s.wrapper.cache s.reading name cached)
  | _ => True

/-- What the caches still have for names is what the map says. -/
def Agrees (cache : Map String CacheEntry) (staticMap : Map String NodeID) (reading : Nat) : Prop :=
  ∀ name id, Live clock cache reading name id → staticMap.lookup name = some id

/-- A resolve does not find an entry that the map contradicts. -/
def NoStaleHit (s : Resolvers) : Call → Prop
  | .resolve .plain name => ∀ id, Live clock s.wrapper.inner.cache s.reading name id →
      s.wrapper.inner.staticMap.lookup name = some id
  | .resolve .wrapped name =>
    match getCached clock s.wrapper.cache s.reading name with
    | (some id, _) => s.wrapper.inner.staticMap.lookup name = some id
    | (none, reading) => ∀ id, Live clock s.wrapper.inner.cache reading name id →
        s.wrapper.inner.staticMap.lookup name = some id
  | _ => True

variable {clock} {cache : Map String CacheEntry} {staticMap : Map String NodeID} {id : NodeID}
  {name : String} {reading : Nat}

theorem reading_le (clock : Nat → Nat) (cache : Map String CacheEntry) (reading : Nat)
    (name : String) :
    reading ≤ (getCached clock cache reading name).2 := by
  rw [getCached]
  split
  · exact Nat.le_refl _
  · exact Nat.le_succ _

/-- An entry that has not expired had not expired before. -/
theorem Live.earlier (nondecreasing : Monotone clock) (later : reading ≤ next)
    (live : Live clock cache next name id) : Live clock cache reading name id := by
  rw [Live, getCached] at *
  split at live
  · cases live
  · rename_i entry found
    have times := nondecreasing later
    simp only [CacheEntry.isExpired, decide_eq_true_eq] at live ⊢
    split at live
    · cases live
    · rw [if_neg (by omega)]
      exact live

theorem Agrees.later (nondecreasing : Monotone clock) (agrees : Agrees clock cache staticMap reading)
    (later : reading ≤ next) : Agrees clock cache staticMap next :=
  fun name id live => agrees name id (live.earlier nondecreasing later)

theorem live_insert_self (live : Live clock (cache.insert name entry) reading name id) :
    id = entry.id := by
  rw [Live, getCached, AList.lookup_insert] at live
  dsimp only at live
  split at live
  · cases live
  · exact (Option.some.inj live).symm

theorem live_insert_ne (other : name ≠ key) :
    Live clock (cache.insert key entry) reading name id ↔ Live clock cache reading name id := by
  rw [Live, Live, getCached, getCached, AList.lookup_insert_ne other]

theorem Agrees.insert (agrees : Agrees clock cache staticMap reading)
    (same : staticMap.lookup name = some id) (insertedAt ttl : Nat) :
    Agrees clock (cache.insert name ⟨id, insertedAt, ttl⟩) staticMap reading := by
  intro key cached live
  by_cases own : key = name
  · subst own
    rw [live_insert_self live]
    exact same
  · exact agrees key cached ((live_insert_ne own).mp live)

theorem agrees_empty : Agrees clock ∅ staticMap reading := by
  intro name id live
  rw [Live, getCached, AList.lookup_empty] at live
  cases live

theorem mapped_eq_ok : mapped staticMap name = .ok id ↔ staticMap.lookup name = some id := by
  rw [mapped]
  cases staticMap.lookup name <;> simp

section
variable {r : MemAddressResolver} {next : Nat}

theorem plain_hit (hit : getCached clock r.cache reading name = (some id, next)) :
    AddressResolver.resolve clock r reading name = (.ok id, r, next) := by
  show (match getCached clock r.cache reading name with | (some id, _) => _ | (none, _) => _) = _
  rw [hit]

theorem plain_mapped (miss : getCached clock r.cache reading name = (none, next))
    (found : r.staticMap.lookup name = some id) : AddressResolver.resolve clock r reading name =
      (.ok id, r.insert clock next name id r.defaultTtl) := by
  show (match getCached clock r.cache reading name with | (some id, _) => _ | (none, _) => _) = _
  rw [miss]
  dsimp only
  rw [found]

theorem plain_unmapped (miss : getCached clock r.cache reading name = (none, next))
    (absent : r.staticMap.lookup name = none) : AddressResolver.resolve clock r reading name =
      (.error (.unknownNode name), r, next) := by
  show (match getCached clock r.cache reading name with | (some id, _) => _ | (none, _) => _) = _
  rw [miss]
  dsimp only
  rw [absent]

/-- What a resolve of the plain resolver does where its cache agrees with its map. -/
theorem resolve_plain (nondecreasing : Monotone clock)
    (agrees : Agrees clock r.cache r.staticMap reading) (name : String) :
    ∃ inner next, AddressResolver.resolve clock r reading name =
        (mapped r.staticMap name, inner, next) ∧ reading ≤ next ∧
      inner.staticMap = r.staticMap ∧ Agrees clock inner.cache r.staticMap next := by
  have later := reading_le clock r.cache reading name
  cases hit : getCached clock r.cache reading name with
  | mk found next =>
    rw [hit] at later
    cases found with
    | some id =>
      have right := agrees name id (by rw [Live, hit])
      refine ⟨r, next, ?_, later, rfl, agrees.later nondecreasing later⟩
      rw [plain_hit hit, mapped_eq_ok.mpr right]
    | none =>
      cases map : r.staticMap.lookup name with
      | some id =>
        have room : reading ≤ next + 1 := Nat.le_succ_of_le later
        refine ⟨(r.insert clock next name id r.defaultTtl).1, next + 1, ?_, room, rfl, ?_⟩
        · rw [plain_mapped hit map, mapped_eq_ok.mpr map]
          rfl
        · exact (agrees.insert map _ _).later nondecreasing room
      | none =>
        refine ⟨r, next, ?_, later, rfl, agrees.later nondecreasing later⟩
        rw [plain_unmapped hit map, mapped, map]

end

section
variable {w : CachingResolver MemAddressResolver} {inner : MemAddressResolver} {next later : Nat}

theorem wrapped_hit (hit : getCached clock w.cache reading name = (some id, next)) :
    AddressResolver.resolve clock w reading name = (.ok id, w, next) := by
  show (match getCached clock w.cache reading name with | (some id, _) => _ | (none, _) => _) = _
  rw [hit]

theorem wrapped_ok (miss : getCached clock w.cache reading name = (none, next))
    (resolved : AddressResolver.resolve clock w.inner next name = (.ok id, inner, later)) :
    AddressResolver.resolve clock w reading name =
      (.ok id, CachingResolver.insert clock { w with inner } later name id fiveMinutes) := by
  show (match getCached clock w.cache reading name with | (some id, _) => _ | (none, _) => _) = _
  rw [miss]
  dsimp only
  rw [resolved]

theorem wrapped_error (miss : getCached clock w.cache reading name = (none, next))
    (resolved : AddressResolver.resolve clock w.inner next name = (.error e, inner, later)) :
    AddressResolver.resolve clock w reading name = (.error e, { w with inner }, later) := by
  show (match getCached clock w.cache reading name with | (some id, _) => _ | (none, _) => _) = _
  rw [miss]
  dsimp only
  rw [resolved]

/-- The same in a wrapper: what it takes over from the resolver is what the map says. -/
theorem resolve_wrapped (nondecreasing : Monotone clock)
    (outer : Agrees clock w.cache w.inner.staticMap reading)
    (agrees : Agrees clock w.inner.cache w.inner.staticMap reading) (name : String) :
    ∃ (wrapper : CachingResolver MemAddressResolver) (next : Nat),
      AddressResolver.resolve clock w reading name =
        (mapped w.inner.staticMap name, wrapper, next) ∧ reading ≤ next ∧
      wrapper.inner.staticMap = w.inner.staticMap ∧
      Agrees clock wrapper.cache w.inner.staticMap next ∧
      Agrees clock wrapper.inner.cache w.inner.staticMap next := by
  have later := reading_le clock w.cache reading name
  cases hit : getCached clock w.cache reading name with
  | mk found next =>
    rw [hit] at later
    cases found with
    | some id =>
      have right := outer name id (by rw [Live, hit])
      refine ⟨w, next, ?_, later, rfl, outer.later nondecreasing later,
        agrees.later nondecreasing later⟩
      rw [wrapped_hit hit, mapped_eq_ok.mpr right]
    | none =>
      obtain ⟨inner, last, resolved, more, same, kept⟩ :=
        resolve_plain nondecreasing (agrees.later nondecreasing later) name
      have room := later.trans more
      cases map : w.inner.staticMap.lookup name with
      | some id =>
        rw [mapped_eq_ok.mpr map] at resolved
        have rooms : reading ≤ last + 2 := room.trans (Nat.le_add_right ..)
        refine ⟨⟨(inner.insert clock (last + 1) name id fiveMinutes).1,
          w.cache.insert name ⟨id, clock last, fiveMinutes⟩⟩, last + 2, ?_, rooms, same, ?_, ?_⟩
        · rw [wrapped_ok hit resolved, mapped_eq_ok.mpr map]
          rfl
        · exact (outer.insert map _ _).later nondecreasing rooms
        · exact (kept.insert map _ _).later nondecreasing (Nat.le_add_right ..)
      | none =>
        have missing : mapped w.inner.staticMap name = .error (.unknownNode name) := by
          rw [mapped, map]
        rw [missing] at resolved
        refine ⟨{ w with inner }, last, ?_, room, same, outer.later nondecreasing room, kept⟩
        rw [wrapped_error hit resolved, missing]

end

/-- Both caches agree with the map. -/
structure Coherent (clock : Nat → Nat) (s : Resolvers) : Prop where
  inner : Agrees clock s.wrapper.inner.cache s.wrapper.inner.staticMap s.reading
  outer : Agrees clock s.wrapper.cache s.wrapper.inner.staticMap s.reading

section
variable {s t : Resolvers}

theorem live_plain (live : Live clock s.wrapper.inner.cache s.reading name id) :
    (s.resolve clock name .plain).1 = .ok id := by
  have hit : getCached clock s.wrapper.inner.cache s.reading name =
      (some id, (getCached clock s.wrapper.inner.cache s.reading name).2) := Prod.ext live rfl
  simp only [Resolvers.resolve, plain_hit hit]

theorem live_wrapped (live : Live clock s.wrapper.cache s.reading name id) :
    (s.resolve clock name .wrapped).1 = .ok id := by
  have hit : getCached clock s.wrapper.cache s.reading name =
      (some id, (getCached clock s.wrapper.cache s.reading name).2) := Prod.ext live rfl
  simp only [Resolvers.resolve, wrapped_hit hit]

theorem Coherent.resolve (nondecreasing : Monotone clock) (coherent : Coherent clock s)
    (name : String) (handle : Handle) :
    (s.resolve clock name handle).1 = s.mapped name ∧
      Coherent clock (s.resolve clock name handle).2 := by
  cases handle with
  | plain =>
    obtain ⟨inner, next, resolved, later, same, kept⟩ :=
      resolve_plain nondecreasing coherent.inner name
    simp only [Resolvers.resolve, resolved]
    refine ⟨rfl, ⟨?_, ?_⟩⟩
    · rw [same]
      exact kept
    · rw [same]
      exact coherent.outer.later nondecreasing later
  | wrapped =>
    obtain ⟨wrapper, next, resolved, later, same, outer, inner⟩ :=
      resolve_wrapped nondecreasing coherent.outer coherent.inner name
    simp only [Resolvers.resolve, resolved]
    refine ⟨rfl, ⟨?_, ?_⟩⟩
    · rw [same]
      exact inner
    · rw [same]
      exact outer

/-- Every resolve would be right exactly where both caches agree with the map. -/
theorem transparent_iff (nondecreasing : Monotone clock) :
    Transparent clock s ↔ Coherent clock s := by
  constructor
  · intro transparent
    constructor
    · intro name id live
      exact mapped_eq_ok.mp ((transparent .plain name).symm.trans (live_plain live))
    · intro name id live
      exact mapped_eq_ok.mp ((transparent .wrapped name).symm.trans (live_wrapped live))
  · intro coherent handle name
    exact (coherent.resolve nondecreasing name handle).1

theorem step_total (clock : Nat → Nat) (s : Resolvers) (call : Call) :
    ∃ t, step clock s call = some t := by
  cases call with
  | clearCache handle => cases handle <;> exact ⟨_, rfl⟩
  | _ => exact ⟨_, rfl⟩

theorem agrees_insert_iff (agrees : Agrees clock cache staticMap reading) (name : String)
    (id : NodeID) : Agrees clock cache (staticMap.insert name id) reading ↔
      ∀ cached, Live clock cache reading name cached → cached = id := by
  constructor
  · intro kept cached live
    have found := kept name cached live
    rw [AList.lookup_insert] at found
    exact (Option.some.inj found).symm
  · intro same key cached live
    by_cases own : key = name
    · subst own
      rw [AList.lookup_insert, same cached live]
    · rw [AList.lookup_insert_ne own]
      exact agrees key cached live

theorem agrees_erase_iff (agrees : Agrees clock cache staticMap reading) (name : String) :
    Agrees clock cache (staticMap.erase name) reading ↔
      ∀ cached, ¬ Live clock cache reading name cached := by
  constructor
  · intro kept cached live
    have found := kept name cached live
    rw [AList.lookup_erase] at found
    cases found
  · intro absent key cached live
    by_cases own : key = name
    · subst own
      exact absurd live (absent cached)
    · rw [AList.lookup_erase_ne own]
      exact agrees key cached live

/-- The caches keep agreeing with the map exactly over settled calls. -/
theorem step_coherent (nondecreasing : Monotone clock) (coherent : Coherent clock s)
    (stepped : step clock s call = some t) : Coherent clock t ↔ Settled clock s call := by
  cases call with
  | addStaticMapping name id =>
    cases Option.some.inj stepped
    have inner := agrees_insert_iff coherent.inner name id
    have outer := agrees_insert_iff coherent.outer name id
    constructor
    · rintro ⟨first, second⟩ cached (live | live)
      · exact inner.mp first cached live
      · exact outer.mp second cached live
    · intro same
      exact ⟨inner.mpr fun cached live => same cached (.inl live),
        outer.mpr fun cached live => same cached (.inr live)⟩
  | removeStaticMapping name =>
    cases Option.some.inj stepped
    have inner := agrees_erase_iff coherent.inner name
    have outer := agrees_erase_iff coherent.outer name
    constructor
    · rintro ⟨first, second⟩ cached (live | live)
      · exact inner.mp first cached live
      · exact outer.mp second cached live
    · intro absent
      exact ⟨inner.mpr fun cached live => absent cached (.inl live),
        outer.mpr fun cached live => absent cached (.inr live)⟩
  | clearCache handle =>
    cases handle with
    | plain =>
      cases Option.some.inj stepped
      exact iff_of_true ⟨agrees_empty, coherent.outer⟩ trivial
    | wrapped =>
      cases Option.some.inj stepped
      exact iff_of_true ⟨agrees_empty, agrees_empty⟩ trivial
  | resolve handle name =>
    cases Option.some.inj stepped
    exact iff_of_true (coherent.resolve nondecreasing name handle).2 trivial

/-- The plain resolver is right exactly when it does not find an entry that is wrong. -/
theorem plain_right_iff (r : MemAddressResolver) (reading : Nat) (name : String) :
    (AddressResolver.resolve clock r reading name).1 = mapped r.staticMap name ↔
      ∀ id, Live clock r.cache reading name id → r.staticMap.lookup name = some id := by
  cases hit : getCached clock r.cache reading name with
  | mk found next =>
    cases found with
    | some id =>
      rw [plain_hit hit, eq_comm, mapped_eq_ok]
      simp only [Live, hit, Option.some.injEq, forall_eq']
    | none =>
      have right : (AddressResolver.resolve clock r reading name).1 = mapped r.staticMap name := by
        cases map : r.staticMap.lookup name with
        | some id => rw [plain_mapped hit map, mapped_eq_ok.mpr map]
        | none => rw [plain_unmapped hit map, mapped, map]
      refine iff_of_true right fun id live => ?_
      rw [Live, hit] at live
      cases live

/-- Without an entry of its own a wrapper answers what its resolver does. -/
theorem wrapped_miss {w : CachingResolver MemAddressResolver}
    (miss : getCached clock w.cache reading name = (none, next)) :
    (AddressResolver.resolve clock w reading name).1 =
      (AddressResolver.resolve clock w.inner next name).1 := by
  cases resolved : AddressResolver.resolve clock w.inner next name with
  | mk answer rest =>
    obtain ⟨inner, later⟩ := rest
    cases answer with
    | ok id => rw [wrapped_ok miss resolved]
    | error e => rw [wrapped_error miss resolved]

theorem truthful_iff (s : Resolvers) (call : Call) :
    Truthful clock s call ↔ NoStaleHit clock s call := by
  cases call with
  | resolve handle name =>
    cases handle with
    | plain => exact plain_right_iff s.wrapper.inner s.reading name
    | wrapped =>
      rw [Truthful, NoStaleHit]
      show (AddressResolver.resolve clock s.wrapper s.reading name).1 =
        mapped s.wrapper.inner.staticMap name ↔ _
      cases hit : getCached clock s.wrapper.cache s.reading name with
      | mk found next =>
        cases found with
        | some id => rw [wrapped_hit hit, eq_comm, mapped_eq_ok]
        | none =>
          rw [wrapped_miss hit]
          exact plain_right_iff s.wrapper.inner next name
  | _ => exact Iff.rfl

end

end

/-- A run from a new resolver: its resolves answer what the static map says exactly when
none of them finds an entry that the map contradicts. Every resolve that could be called
would, in every state of the run, exactly when mappings are changed only while no other id
is cached for their names; such a run has the first property. -/
theorem resolve_transparent {clock : Nat → Nat} (nondecreasing : Monotone clock) (defaultTtl : Nat)
    (calls : List Call) :
    (Meets (step clock) (Truthful clock) (.start defaultTtl) calls ↔
      Meets (step clock) (NoStaleHit clock) (.start defaultTtl) calls) ∧
    (Always (step clock) (Transparent clock) (.start defaultTtl) calls ↔
      Meets (step clock) (Settled clock) (.start defaultTtl) calls) ∧
    (Meets (step clock) (Settled clock) (.start defaultTtl) calls →
      Meets (step clock) (Truthful clock) (.start defaultTtl) calls) := by
  have initial : Coherent clock (.start defaultTtl) := ⟨agrees_empty, agrees_empty⟩
  have same : Truthful clock = NoStaleHit clock :=
    funext₂ fun s call => propext (truthful_iff s call)
  have safe : Transparent clock = Coherent clock :=
    funext fun s => propext (transparent_iff nondecreasing)
  refine ⟨by rw [same], ?_, ?_⟩
  · rw [safe]
    apply always_iff_of_aborts (I := fun _ => True) (fun _ _ _ => trivial) _
      (fun _ coherent stepped => step_coherent nondecreasing coherent stepped) trivial initial
    intro s call _ _ aborted
    obtain ⟨t, stepped⟩ := step_total clock s call
    rw [stepped] at aborted
    cases aborted
  · intro settled
    apply meets_guarded _ _ settled initial
    · intro s call t coherent change stepped
      exact (step_coherent nondecreasing coherent stepped).mpr change
    · intro s call coherent _
      cases call with
      | resolve handle name => exact (coherent.resolve nondecreasing name handle).1
      | _ => trivial

def firstId : NodeID := .replicate 32 1

def secondId : NodeID := .replicate 32 2

/-- A mapping is changed after the caches were cleared. -/
def carefulCalls : List Call :=
  [.addStaticMapping "Pikachu" firstId, .resolve .wrapped "Pikachu", .clearCache .wrapped,
    .addStaticMapping "Pikachu" secondId, .resolve .wrapped "Pikachu"]

theorem resolve_transparent_careful :
    (Meets (step id) (Truthful id) (.start fiveMinutes) carefulCalls ↔
      Meets (step id) (NoStaleHit id) (.start fiveMinutes) carefulCalls) ∧
    (Always (step id) (Transparent id) (.start fiveMinutes) carefulCalls ↔
      Meets (step id) (Settled id) (.start fiveMinutes) carefulCalls) ∧
    (Meets (step id) (Settled id) (.start fiveMinutes) carefulCalls →
      Meets (step id) (Truthful id) (.start fiveMinutes) carefulCalls) :=
  resolve_transparent monotone_id fiveMinutes carefulCalls

/-- A name is resolved, its mapping changes, and it is resolved again. -/
def staleCalls (handle : Handle) (change : Call) : List Call :=
  [.addStaticMapping "Pikachu" firstId, .resolve handle "Pikachu", change,
    .resolve handle "Pikachu"]

/-- The plain resolver and its wrapper still answer with the first id, for a name that has
another one and for a name that has none. -/
theorem resolve_stale :
    ¬ Meets (step id) (Truthful id) (.start fiveMinutes)
      (staleCalls .plain (.addStaticMapping "Pikachu" secondId)) ∧
    ¬ Meets (step id) (Truthful id) (.start fiveMinutes)
      (staleCalls .plain (.removeStaticMapping "Pikachu")) ∧
    ¬ Meets (step id) (Truthful id) (.start fiveMinutes)
      (staleCalls .wrapped (.addStaticMapping "Pikachu" secondId)) ∧
    ¬ Meets (step id) (Truthful id) (.start fiveMinutes)
      (staleCalls .wrapped (.removeStaticMapping "Pikachu")) := by
  have other : firstId ≠ secondId := by decide
  refine ⟨fun meets => ?_, fun meets => ?_, fun meets => ?_, fun meets => ?_⟩
  · have last : Except.ok firstId = (Except.ok secondId : Except AddressError NodeID) :=
      (((meets.2 _ rfl).2 _ rfl).2 _ rfl).1
    exact other (Except.ok.inj last)
  · have last : Except.ok firstId = Except.error (AddressError.unknownNode "Pikachu") :=
      (((meets.2 _ rfl).2 _ rfl).2 _ rfl).1
    cases last
  · have last : Except.ok firstId = (Except.ok secondId : Except AddressError NodeID) :=
      (((meets.2 _ rfl).2 _ rfl).2 _ rfl).1
    exact other (Except.ok.inj last)
  · have last : Except.ok firstId = Except.error (AddressError.unknownNode "Pikachu") :=
      (((meets.2 _ rfl).2 _ rfl).2 _ rfl).1
    cases last

end AddressCache

end LanLink.Vpn
