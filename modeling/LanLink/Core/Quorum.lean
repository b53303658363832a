import Mathlib.Data.Finset.Card

/-! Voting by majority. Votes are a relation between voters, candidates and
rounds; where every voter names at most one candidate in a round, a round has
at most one winner, because two majorities of one electorate share a voter. -/
namespace Quorum
variable {V C T : Type} {voted more : V → C → T → Prop} {members : Finset V}

def SingleVote (voted : V → C → T → Prop) : Prop :=
  ∀ v c d t, voted v c t → voted v d t → c = d

def Wins (members : Finset V) (voted : V → C → T → Prop) (c : C) (t : T) : Prop :=
  ∃ voters ⊆ members, members.card < 2 * voters.card ∧ ∀ v ∈ voters, voted v c t

/-- Votes cast later take no victory away. -/
theorem Wins.mono (grows : ∀ v c t, voted v c t → more v c t) (won : Wins members voted c t) :
    Wins members more c t := by
  obtain ⟨voters, inside, majority, support⟩ := won
  exact ⟨voters, inside, majority, fun v member => grows v c t (support v member)⟩

theorem unique_winner [DecidableEq V] (single : SingleVote voted) (first : Wins members voted c t)
    (second : Wins members voted d t) : c = d := by
  obtain ⟨left, leftInside, leftMajority, leftSupport⟩ := first
  obtain ⟨right, rightInside, rightMajority, rightSupport⟩ := second
  obtain ⟨v, shared⟩ := Finset.inter_nonempty_of_card_lt_card_add_card leftInside rightInside
    (by omega)
  obtain ⟨inLeft, inRight⟩ := Finset.mem_inter.mp shared
  exact single v c d t (leftSupport v inLeft) (rightSupport v inRight)

/-- A list of distinct supporters of which there are more than half is a victory. -/
theorem wins_of_list [DecidableEq V] {voters : List V} (distinct : voters.Nodup)
    (inside : ∀ v ∈ voters, v ∈ members) (majority : members.card < 2 * voters.length)
    (support : ∀ v ∈ voters, voted v c t) : Wins members voted c t := by
  refine ⟨voters.toFinset, ?_, ?_, ?_⟩
  · intro v member
    exact inside v (List.mem_toFinset.mp member)
  · rwa [List.toFinset_card_of_nodup distinct]
  · intro v member
    exact support v (List.mem_toFinset.mp member)

end Quorum
