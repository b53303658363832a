import Mathlib.Data.List.Induction
import Mathlib.Data.List.Perm.Basic
import Mathlib.Order.Lattice

/-! A place that is contested one challenger after the other. A challenger has
a grade that decides against every holder, or it ties and the larger key wins.
The last holder is the same for every order of the challengers exactly when
one of them is a champion: it wins against all that may hold the place before
it and loses to none. -/
namespace Contests

inductive Grade where
  | wins | ties | loses
  deriving DecidableEq

/-- `enters` says which challengers take the place while nobody holds it. -/
structure Contest (α κ : Type) where
  grade : α → Grade
  key : α → κ
  enters : α → Bool

variable {α κ : Type} [LinearOrder κ] {c : Contest α κ}

def Contest.beats (c : Contest α κ) (holder challenger : α) : Bool :=
  match c.grade challenger with
  | .wins => true
  | .loses => false
  | .ties => c.key holder < c.key challenger

def Contest.challenge (c : Contest α κ) : Option α → α → Option α
  | none, challenger => if c.enters challenger then some challenger else none
  | some holder, challenger => if c.beats holder challenger then some challenger else some holder

/-- The holder after all challenges. -/
def Contest.winner (c : Contest α κ) (challengers : List α) : Option α :=
  challengers.foldl c.challenge none

structure Contest.Champion (c : Contest α κ) (all : List α) (x : α) : Prop where
  member : x ∈ all
  enters : c.enters x
  beats : ∀ a ∈ all, c.enters a → a ≠ x → c.beats a x
  unbeaten : ∀ e ∈ all, e ≠ x → ¬ c.beats x e

theorem Contest.holder_mem {challengers : List α} {holder : α}
    (held : challengers.foldl c.challenge (some holder) = some x) :
    x = holder ∨ x ∈ challengers := by
  induction challengers generalizing holder with
  | nil => exact Or.inl (Option.some.inj held).symm
  | cons first rest ih =>
    rw [List.foldl_cons, challenge] at held
    split at held
    · exact Or.inr (by simpa using ih held)
    · exact (ih held).imp_right (List.mem_cons_of_mem _)

/-- The place stays with a holder that nobody beats. -/
theorem Contest.holder_stays {challengers : List α}
    (unbeaten : ∀ e ∈ challengers, ¬ c.beats x e) :
    challengers.foldl c.challenge (some x) = some x := by
  induction challengers with
  | nil => rfl
  | cons first rest ih =>
    rw [List.foldl_cons, challenge, if_neg (unbeaten first (by simp))]
    exact ih fun e member => unbeaten e (by simp [member])

theorem Contest.holder_some (challengers : List α) (holder : α) :
    ∃ x, challengers.foldl c.challenge (some holder) = some x := by
  induction challengers generalizing holder with
  | nil => exact ⟨holder, rfl⟩
  | cons first rest ih =>
    rw [List.foldl_cons, challenge]
    split
    · exact ih first
    · exact ih holder

theorem Contest.winner_skip (skipped : ¬ c.enters first) (rest : List α) :
    c.winner (first :: rest) = c.winner rest := by
  rw [winner, List.foldl_cons, challenge, if_neg skipped, ← winner]

theorem Contest.winner_enter (entered : c.enters first) (rest : List α) :
    c.winner (first :: rest) = rest.foldl c.challenge (some first) := by
  rw [winner, List.foldl_cons, challenge, if_pos entered]

theorem Contest.winner_mem {challengers : List α} (won : c.winner challengers = some x) :
    x ∈ challengers := by
  induction challengers with
  | nil => cases won
  | cons first rest ih =>
    by_cases entered : c.enters first
    · rw [winner_enter entered] at won
      exact List.mem_cons.mpr (holder_mem won)
    · rw [winner_skip entered] at won
      exact List.mem_cons_of_mem _ (ih won)

theorem Contest.winner_eq_none {challengers : List α} :
    c.winner challengers = none ↔ ∀ e ∈ challengers, ¬ c.enters e := by
  induction challengers with
  | nil => simp [winner]
  | cons first rest ih =>
    by_cases entered : c.enters first
    · obtain ⟨x, held⟩ := holder_some (c := c) rest first
      rw [winner_enter entered, held]
      simp [entered]
    · rw [winner_skip entered, ih]
      simp [entered]

theorem Contest.grade_of_beats (beaten : c.beats holder x) : c.grade x ≠ .loses := by
  intro loses
  simp [beats, loses] at beaten

/-- A holder entered, or it came later and is not one that always loses. -/
theorem Contest.holder_grade {challengers : List α} (held : c.winner challengers = some h) :
    c.enters h ∨ c.grade h ≠ .loses := by
  induction challengers using List.reverseRecOn generalizing h with
  | nil => cases held
  | append_singleton earlier e ih =>
    rw [winner, List.foldl_append, ← winner, List.foldl_cons, List.foldl_nil] at held
    cases before : c.winner earlier with
    | none =>
      rw [before, challenge, Option.ite_none_right_eq_some, Option.some.injEq] at held
      exact Or.inl (held.2 ▸ held.1)
    | some g =>
      rw [before, challenge] at held
      split at held
      · rename_i beaten
        cases held
        exact Or.inr (grade_of_beats beaten)
      · cases held
        exact ih before

/-- A champion beats whoever holds the place when it comes. -/
theorem Contest.Champion.beats_holder {all : List α} (champion : c.Champion all x)
    (distinct : ∀ a ∈ all, ∀ b ∈ all, c.key a = c.key b → a = b)
    (inside : ∀ e ∈ earlier, e ∈ all) (absent : x ∉ earlier)
    (held : c.winner earlier = some h) : c.beats h x := by
  have member := winner_mem held
  have other : h ≠ x := fun same => absent (same ▸ member)
  rcases holder_grade held with entered | grade
  · exact champion.beats h (inside h member) entered other
  · have someone : ¬ ∀ e ∈ earlier, ¬ c.enters e := by
      intro nobody
      rw [winner_eq_none.mpr nobody] at held
      cases held
    obtain ⟨a, early, entered⟩ : ∃ a ∈ earlier, c.enters a := by simpa using someone
    have wins := grade_of_beats (champion.beats a (inside a early) entered
      fun same => absent (same ▸ early))
    have unbeaten := champion.unbeaten h (inside h member) other
    have apart : c.key h ≠ c.key x := fun same =>
      other (distinct h (inside h member) x champion.member same)
    rw [Contest.beats] at unbeaten ⊢
    cases first : c.grade h with
    | wins => simp [first] at unbeaten
    | loses => exact absurd first grade
    | ties =>
      cases second : c.grade x with
      | wins => rfl
      | loses => exact absurd second wins
      | ties =>
        simp only [first, decide_eq_true_eq, not_lt] at unbeaten
        simpa using lt_of_le_of_ne unbeaten apart

theorem Contest.Champion.winner {all : List α} (champion : c.Champion all x)
    (distinct : ∀ a ∈ all, ∀ b ∈ all, c.key a = c.key b → a = b) (nodup : all.Nodup)
    (perm : challengers.Perm all) : c.winner challengers = some x := by
  obtain ⟨before, after, rfl⟩ := List.append_of_mem (perm.mem_iff.mpr champion.member)
  have once := perm.nodup_iff.mpr nodup
  rw [List.nodup_append, List.nodup_cons] at once
  obtain ⟨-, ⟨notAfter, -⟩, apart⟩ := once
  have notBefore : x ∉ before := fun member => apart x member x (by simp) rfl
  have inside (e : α) (member : e ∈ before) : e ∈ all := perm.mem_iff.mp (by simp [member])
  have takes : c.challenge (c.winner before) x = some x := by
    cases held : c.winner before with
    | none => rw [challenge, if_pos champion.enters]
    | some h => rw [challenge, if_pos (champion.beats_holder distinct inside notBefore held)]
  rw [Contest.winner, List.foldl_append, ← Contest.winner, List.foldl_cons, takes]
  refine holder_stays fun e member => champion.unbeaten e (perm.mem_iff.mp (by simp [member])) ?_
  exact fun same => notAfter (same ▸ member)

variable [DecidableEq α]

/-- A winner of every order is a champion. -/
theorem Contest.champion_of_winner {all : List α} (nodup : all.Nodup)
    (always : ∀ challengers, challengers.Perm all → c.winner challengers = some x) :
    c.Champion all x := by
  have member := winner_mem (always all (List.Perm.refl _))
  have perm := List.perm_cons_erase member
  have gone : x ∉ all.erase x := fun still => (nodup.mem_erase_iff.mp still).1 rfl
  have entered : c.enters x := by
    by_contra skipped
    have won := always _ perm.symm
    rw [winner_skip skipped] at won
    exact gone (winner_mem won)
  refine ⟨member, entered, ?_, ?_⟩
  · intro a known enters other
    have still : x ∈ all.erase a := nodup.mem_erase_iff.mpr ⟨Ne.symm other, member⟩
    have order := (List.perm_cons_erase known).trans ((List.perm_cons_erase still).cons a)
    have won := always _ order.symm
    by_contra loses
    rw [winner_enter enters, List.foldl_cons, challenge, if_neg loses] at won
    rcases holder_mem won with same | later
    · exact other same.symm
    · exact ((nodup.erase a).mem_erase_iff.mp later).1 rfl
  · intro e known other beaten
    have still : e ∈ all.erase x := nodup.mem_erase_iff.mpr ⟨other, known⟩
    have order := perm.trans ((List.perm_cons_erase still).cons x)
    have won := always _ order.symm
    rw [winner_enter entered, List.foldl_cons, challenge, if_pos beaten] at won
    rcases holder_mem won with same | later
    · exact other same.symm
    · exact gone (List.mem_of_mem_erase later)

/-- The winner is the same for all orders exactly when nobody enters or there is
a champion. -/
theorem Contest.winner_same_iff {all : List α} (nodup : all.Nodup)
    (distinct : ∀ a ∈ all, ∀ b ∈ all, c.key a = c.key b → a = b) :
    (∀ first second, first.Perm all → second.Perm all → c.winner first = c.winner second) ↔
      (∀ e ∈ all, ¬ c.enters e) ∨ ∃ x, c.Champion all x := by
  constructor
  · intro same
    cases won : c.winner all with
    | none => exact Or.inl (winner_eq_none.mp won)
    | some x =>
      refine Or.inr ⟨x, champion_of_winner nodup fun challengers perm => ?_⟩
      rw [same _ _ perm (List.Perm.refl _), won]
  · rintro (nobody | ⟨x, champion⟩) first second firstPerm secondPerm
    · rw [winner_eq_none.mpr fun e member => nobody e (firstPerm.mem_iff.mp member),
        winner_eq_none.mpr fun e member => nobody e (secondPerm.mem_iff.mp member)]
    · rw [champion.winner distinct nodup firstPerm, champion.winner distinct nodup secondPerm]

end Contests
