import LanLink.Core.Sliding
import LanLink.Daemon.RateLimits
import Mathlib.Data.List.Induction

/-! The sliding law the rate limiter is documented to keep, against the windows it restarts.
The windows are split from the times of the calls alone; where two of them meet, the calls
that each of them lets through add up. -/
namespace LanLink.Daemon
open Words Sliding

/-- The first call of a window and the calls that followed it, in order. -/
structure CallWindow where
  start : Nat
  later : List Nat

def CallWindow.calls (w : CallWindow) : List Nat := w.start :: w.later

/-- A call joins the newest window or opens another one. Newest first. -/
def place (windows : List CallWindow) (now : Nat) : List CallWindow :=
  match windows with
  | [] => [⟨now, []⟩]
  | w :: older =>
    if w.start + rateWindow < now then ⟨now, []⟩ :: w :: older
    else ⟨w.start, w.later ++ [now]⟩ :: older

def windows (times : List Nat) : List CallWindow := times.foldl place []

/-- The calls of the newest window. -/
def newest : List CallWindow → List Nat
  | [] => []
  | w :: _ => w.calls

/-- The first calls of each window, up to the limit. -/
def admitted (limit : Nat) : List CallWindow → List Nat
  | [] => []
  | w :: older => admitted limit older ++ w.calls.take limit

/-- A call that a window lets through leaves room for what the window before let through
in the last `rateWindow`. -/
def Calm (limit : Nat) : List CallWindow → Prop
  | [] => True
  | w :: older =>
    (∀ k a, k < limit → w.calls[k]? = some a →
      k + 1 + recent rateWindow a ((newest older).take limit) ≤ limit) ∧ Calm limit older

/-- The counter of no window wraps. -/
def Unwrapped (checks : Bool) (windows : List CallWindow) : Prop :=
  checks = false → ∀ w ∈ windows, w.calls.length < 2 ^ 32

theorem windows_snoc (times : List Nat) (now : Nat) :
    windows (times ++ [now]) = place (windows times) now := by
  rw [windows, List.foldl_append]
  rfl

/-- No call of a window is later than `now`, and windows lie more than their width apart. -/
structure Spaced (now : Nat) (windows : List CallWindow) : Prop where
  apart : windows.Pairwise fun newer older => older.start + rateWindow < newer.start
  inside : ∀ w ∈ windows, ∀ x ∈ w.calls, w.start ≤ x ∧ x ≤ w.start + rateWindow ∧ x ≤ now

theorem CallWindow.start_mem (w : CallWindow) : w.start ∈ w.calls := List.mem_cons_self

theorem Spaced.later {windows : List CallWindow} (spaced : Spaced before windows)
    (ordered : before ≤ now) : Spaced now windows := by
  refine ⟨spaced.apart, fun w member x call => ?_⟩
  obtain ⟨lower, upper, latest⟩ := spaced.inside w member x call
  exact ⟨lower, upper, latest.trans ordered⟩

theorem fresh_inside (now : Nat) : ∀ x ∈ (CallWindow.mk now []).calls,
    now ≤ x ∧ x ≤ now + rateWindow ∧ x ≤ now := by
  intro x call
  rw [List.mem_singleton.mp call]
  exact ⟨le_rfl, Nat.le_add_right _ _, le_rfl⟩

theorem Spaced.opens {older : List CallWindow} (spaced : Spaced now (w :: older))
    (passed : w.start + rateWindow < now) : Spaced now (⟨now, []⟩ :: w :: older) := by
  have first := (List.pairwise_cons.mp spaced.apart).1
  constructor
  · refine List.pairwise_cons.mpr ⟨fun o member => ?_, spaced.apart⟩
    rcases List.mem_cons.mp member with rfl | member
    · exact passed
    · have before := first o member
      have positive : 0 < rateWindow := by decide
      change o.start + rateWindow < now
      omega
  · exact List.forall_mem_cons.mpr ⟨fresh_inside now, spaced.inside⟩

theorem Spaced.joins {older : List CallWindow} (spaced : Spaced now (w :: older))
    (joins : ¬ w.start + rateWindow < now) :
    Spaced now (⟨w.start, w.later ++ [now]⟩ :: older) := by
  obtain ⟨inside, others⟩ := List.forall_mem_cons.mp spaced.inside
  constructor
  · exact List.pairwise_cons.mpr (List.pairwise_cons.mp spaced.apart)
  · refine List.forall_mem_cons.mpr ⟨fun x call => ?_, others⟩
    rcases List.mem_append.mp (show x ∈ w.calls ++ [now] from call) with call | call
    · exact inside x call
    · rw [List.mem_singleton.mp call]
      have start := (inside w.start w.start_mem).2.2
      exact ⟨start, Nat.not_lt.mp joins, le_rfl⟩

theorem Spaced.place {windows : List CallWindow} (spaced : Spaced now windows) :
    Spaced now (place windows now) := by
  cases windows with
  | nil =>
    refine ⟨List.pairwise_singleton _ _, fun w member => ?_⟩
    rw [List.mem_singleton.mp member]
    exact fresh_inside now
  | cons w older =>
    rw [Daemon.place]
    split
    · rename_i passed
      exact spaced.opens passed
    · rename_i joins
      exact spaced.joins joins

theorem spaced_windows {times : List Nat} (ordered : times.Pairwise (· ≤ ·))
    (latest : ∀ x ∈ times, x ≤ now) : Spaced now (windows times) := by
  induction times using List.reverseRecOn generalizing now with
  | nil => exact ⟨List.Pairwise.nil, by simp [windows]⟩
  | append_singleton times last ih =>
    obtain ⟨ordered, -, before⟩ := List.pairwise_append.mp ordered
    have spaced := ih ordered fun x member => before x member last List.mem_cons_self
    rw [windows_snoc]
    exact spaced.place.later (latest last (by simp))

theorem mem_admitted {windows : List CallWindow} (call : x ∈ admitted limit windows) :
    ∃ w ∈ windows, x ∈ w.calls := by
  induction windows with
  | nil => cases call
  | cons o older ih =>
    rcases List.mem_append.mp call with call | call
    · obtain ⟨w, member, call⟩ := ih call
      exact ⟨w, List.mem_cons_of_mem _ member, call⟩
    · exact ⟨o, List.mem_cons_self, List.mem_of_mem_take call⟩

/-- Only the newest window reaches into the interval that ends at a time beyond it. -/
theorem recent_admitted {windows : List CallWindow} (spaced : Spaced now windows)
    (passed : ∀ w ∈ windows.head?, w.start + rateWindow < time) (limit : Nat) :
    recent rateWindow time (admitted limit windows) =
      recent rateWindow time ((newest windows).take limit) := by
  cases windows with
  | nil => rw [admitted, newest, List.take_nil]
  | cons w older =>
    have first := (List.pairwise_cons.mp spaced.apart).1
    have passed := passed w rfl
    have old : recent rateWindow time (admitted limit older) = 0 := by
      apply recent_of_old
      intro x call
      obtain ⟨o, member, call⟩ := mem_admitted call
      have upper := (spaced.inside o (List.mem_cons_of_mem _ member) x call).2.1
      have before := first o member
      omega
    rw [admitted, recent_append, old, Nat.zero_add, newest]

/-- The entry of the limiter and the times it let through so far. -/
structure Watch where
  entry : Option Entry
  accepted : List Nat

def Watch.step (checks : Bool) (limit : UInt32) (watch : Watch) (now : Nat) : Watch :=
  let (entry, answer) := checkEntry checks limit watch.entry now
  ⟨some entry, if answer = some true then watch.accepted ++ [now] else watch.accepted⟩

/-- The counter of the newest window stops short of an overflow. -/
def Counted (entry : Option Entry) : List CallWindow → Prop
  | [] => entry = none
  | w :: _ => ∃ count, entry = some (w.start, count) ∧
      count.toNat = min w.calls.length (2 ^ 32 - 1)

/-- As long as no counter wraps, the first calls of each window are let through. -/
structure Follows (limit : Nat) (watch : Watch) (windows : List CallWindow) : Prop where
  entry : Counted watch.entry windows
  accepted : watch.accepted = admitted limit windows

variable {checks : Bool} {quota : Quota} {watch : Watch} {older : List CallWindow}

/-- A call that opens a window is let through. -/
theorem Watch.step_opens {windows : List CallWindow} (counted : Counted watch.entry windows)
    (opens : ∀ w ∈ windows.head?, w.start + rateWindow < now) :
    watch.step checks quota.limit now = ⟨some (now, 1), watch.accepted ++ [now]⟩ := by
  have entry : checkEntry checks quota.limit watch.entry now = ((now, 1), some true) := by
    cases windows with
    | nil => rw [show watch.entry = none from counted, checkEntry_first]
    | cons w older =>
      obtain ⟨count, same, -⟩ := counted
      rw [same, checkEntry_restart (opens w rfl)]
  rw [Watch.step, entry]
  rfl

theorem Quota.limit_lt (quota : Quota) : quota.limit.toNat < 2 ^ 32 - 1 := by
  cases quota <;> decide

/-- Within a window the first calls are let through. -/
theorem checkEntry_joins (quota : Quota) (counted : count.toNat = min n (2 ^ 32 - 1))
    (joins : ¬ start + rateWindow < now) (unwrapped : checks = false → n + 1 < 2 ^ 32) :
    ∃ next, (checkEntry checks quota.limit (some (start, count)) now).1 = (start, next) ∧
      next.toNat = min (n + 1) (2 ^ 32 - 1) ∧
      ((checkEntry checks quota.limit (some (start, count)) now).2 = some true ↔
        n < quota.limit.toNat) := by
  have same : ¬ now - start > rateWindow := by omega
  have small := quota.limit_lt
  simp only [checkEntry, Option.getD_some, if_neg same]
  by_cases room : count.toNat + 1 < 2 ^ 32
  · have exact_count : count.toNat = n := by omega
    have value : (count.toNat + 1).toUInt32.toNat = n + 1 := by
      rw [toUInt32_toNat room, exact_count]
    rw [addWord_of_lt room]
    refine ⟨_, rfl, by rw [value]; omega, ?_⟩
    rw [Option.some_inj, decide_eq_true_eq, UInt32.le_iff_toNat_le, value]
    exact Nat.succ_le_iff
  · cases checks with
    | false =>
      have bound := unwrapped rfl
      omega
    | true =>
      rw [addWord_checked (Nat.not_lt.mp room)]
      refine ⟨count, rfl, by omega, ?_⟩
      constructor
      · intro answer
        cases answer
      · intro few
        omega

/-- The call that wraps the counter is let through again. -/
theorem checkEntry_wraps (counted : count.toNat = 2 ^ 32 - 1)
    (joins : ¬ start + rateWindow < now) :
    (checkEntry false quota.limit (some (start, count)) now).2 = some true := by
  have same : ¬ now - start > rateWindow := by omega
  simp only [checkEntry, Option.getD_some, if_neg same, addWord_unchecked, counted]
  rfl

/-- The windows a run of calls may have: calm, and none of them wraps. -/
structure Orderly (checks : Bool) (limit : Nat) (windows : List CallWindow) : Prop where
  calm : Calm limit windows
  unwrapped : Unwrapped checks windows

theorem calm_opens {windows : List CallWindow} (positive : 0 < limit) :
    Calm limit (⟨now, []⟩ :: windows) ↔ Calm limit windows ∧
      recent rateWindow now ((newest windows).take limit) + 1 ≤ limit := by
  constructor
  · rintro ⟨first, calm⟩
    have room := first 0 now positive rfl
    exact ⟨calm, by omega⟩
  · rintro ⟨calm, room⟩
    refine ⟨fun k a _ call => ?_, calm⟩
    obtain ⟨within, rfl⟩ := List.getElem?_eq_some_iff.mp call
    obtain rfl : k = 0 := Nat.lt_one_iff.mp within
    change 0 + 1 + recent rateWindow now _ ≤ limit
    omega

theorem calls_snoc (w : CallWindow) (now : Nat) :
    (CallWindow.mk w.start (w.later ++ [now])).calls = w.calls ++ [now] := rfl

theorem calm_joins : Calm limit (⟨w.start, w.later ++ [now]⟩ :: older) ↔
    Calm limit (w :: older) ∧ (w.calls.length < limit →
      w.calls.length + 1 + recent rateWindow now ((newest older).take limit) ≤ limit) := by
  rw [Calm, Calm, calls_snoc]
  constructor
  · rintro ⟨first, calm⟩
    refine ⟨⟨fun k a few call => ?_, calm⟩, fun few => ?_⟩
    · have within := (List.getElem?_eq_some_iff.mp call).1
      exact first k a few (by rw [List.getElem?_append_left within]; exact call)
    · exact first _ now few List.getElem?_concat_length
  · rintro ⟨⟨first, calm⟩, room⟩
    refine ⟨fun k a few call => ?_, calm⟩
    rcases Nat.lt_or_ge k w.calls.length with within | beyond
    · rw [List.getElem?_append_left within] at call
      exact first k a few call
    · have bound := (List.getElem?_eq_some_iff.mp call).1
      rw [List.length_append, List.length_singleton] at bound
      obtain rfl : k = w.calls.length := by omega
      rw [List.getElem?_concat_length] at call
      obtain rfl := Option.some.inj call
      exact room few

theorem unwrapped_opens {windows : List CallWindow} :
    Unwrapped checks (⟨now, []⟩ :: windows) ↔ Unwrapped checks windows := by
  have one : (CallWindow.mk now []).calls.length < 2 ^ 32 := Nat.one_lt_two_pow (by decide)
  simp only [Unwrapped, List.forall_mem_cons, one, true_and]

theorem unwrapped_joins : Unwrapped checks (⟨w.start, w.later ++ [now]⟩ :: older) ↔
    Unwrapped checks (w :: older) ∧ (checks = false → w.calls.length + 1 < 2 ^ 32) := by
  simp only [Unwrapped, List.forall_mem_cons, calls_snoc, List.length_append, List.length_singleton]
  constructor
  · intro unwrapped
    refine ⟨fun unchecked => ⟨?_, (unwrapped unchecked).2⟩, fun unchecked => (unwrapped unchecked).1⟩
    have longer := (unwrapped unchecked).1
    omega
  · rintro ⟨unwrapped, fits⟩ unchecked
    exact ⟨fits unchecked, (unwrapped unchecked).2⟩

theorem orderly_opens {windows : List CallWindow} (positive : 0 < limit) :
    Orderly checks limit (⟨now, []⟩ :: windows) ↔ Orderly checks limit windows ∧
      recent rateWindow now ((newest windows).take limit) + 1 ≤ limit := by
  constructor
  · rintro ⟨calm, unwrapped⟩
    obtain ⟨calm, room⟩ := (calm_opens positive).mp calm
    exact ⟨⟨calm, unwrapped_opens.mp unwrapped⟩, room⟩
  · rintro ⟨⟨calm, unwrapped⟩, room⟩
    exact ⟨(calm_opens positive).mpr ⟨calm, room⟩, unwrapped_opens.mpr unwrapped⟩

theorem orderly_joins : Orderly checks limit (⟨w.start, w.later ++ [now]⟩ :: older) ↔
    Orderly checks limit (w :: older) ∧
      (w.calls.length < limit →
        w.calls.length + 1 + recent rateWindow now ((newest older).take limit) ≤ limit) ∧
      (checks = false → w.calls.length + 1 < 2 ^ 32) := by
  constructor
  · rintro ⟨calm, unwrapped⟩
    obtain ⟨calm, room⟩ := calm_joins.mp calm
    obtain ⟨unwrapped, fits⟩ := unwrapped_joins.mp unwrapped
    exact ⟨⟨calm, unwrapped⟩, room, fits⟩
  · rintro ⟨⟨calm, unwrapped⟩, room, fits⟩
    exact ⟨calm_joins.mpr ⟨calm, room⟩, unwrapped_joins.mpr ⟨unwrapped, fits⟩⟩

theorem Follows.latest {windows : List CallWindow} (follows : Follows limit watch windows)
    (spaced : Spaced now windows) : ∀ x ∈ watch.accepted, x ≤ now := by
  intro x member
  rw [follows.accepted] at member
  obtain ⟨w, window, call⟩ := mem_admitted member
  exact (spaced.inside w window x call).2.2

/-- A window opens: its first call is let through, whatever the window before let through. -/
theorem Follows.opens {windows : List CallWindow}
    (follows : Follows quota.limit.toNat watch windows) (spaced : Spaced now windows)
    (orderly : Orderly checks quota.limit.toNat windows)
    (within : Within quota.limit.toNat rateWindow watch.accepted)
    (passed : ∀ w ∈ windows.head?, w.start + rateWindow < now) :
    Follows quota.limit.toNat (watch.step checks quota.limit now) (⟨now, []⟩ :: windows) ∧
      (Within quota.limit.toNat rateWindow (watch.step checks quota.limit now).accepted ↔
        Orderly checks quota.limit.toNat (⟨now, []⟩ :: windows)) := by
  have positive := quota.limit_pos
  rw [Watch.step_opens follows.entry passed, orderly_opens positive]
  constructor
  · refine ⟨⟨1, rfl, rfl⟩, ?_⟩
    have one : [now].take quota.limit.toNat = [now] := List.take_of_length_le positive
    change watch.accepted ++ [now] = admitted _ windows ++ [now].take quota.limit.toNat
    rw [one, follows.accepted]
  · rw [within_snoc (follows.latest spaced), follows.accepted, recent_admitted spaced passed]
    rw [follows.accepted] at within
    exact and_congr (iff_of_true within orderly) Iff.rfl

/-- Just before a call joins, all that its window let through is recent. -/
theorem Follows.recent_joins (follows : Follows limit watch (w :: older))
    (spaced : Spaced now (w :: older)) (joins : ¬ w.start + rateWindow < now) :
    recent rateWindow now watch.accepted =
      recent rateWindow now ((newest older).take limit) + min limit w.calls.length := by
  have own : recent rateWindow now (w.calls.take limit) = min limit w.calls.length := by
    rw [← List.length_take]
    apply recent_of_new
    intro x member
    have lower := (spaced.inside w List.mem_cons_self x (List.mem_of_mem_take member)).1
    omega
  obtain ⟨first, rest⟩ := List.pairwise_cons.mp spaced.apart
  have before : Spaced now older := by
    refine ⟨rest, fun v member => ?_⟩
    exact spaced.inside v (List.mem_cons_of_mem _ member)
  have start := (spaced.inside w List.mem_cons_self w.start w.start_mem).2.2
  have passed : ∀ v ∈ older.head?, v.start + rateWindow < now := by
    intro v member
    exact Nat.lt_of_lt_of_le (first v (List.mem_of_mem_head? member)) start
  rw [follows.accepted, admitted, recent_append, recent_admitted before passed, own]

/-- A call joins a window whose counter does not wrap. -/
theorem Follows.joins (follows : Follows quota.limit.toNat watch (w :: older))
    (spaced : Spaced now (w :: older)) (orderly : Orderly checks quota.limit.toNat (w :: older))
    (within : Within quota.limit.toNat rateWindow watch.accepted)
    (joins : ¬ w.start + rateWindow < now) (fits : checks = false → w.calls.length + 1 < 2 ^ 32) :
    Follows quota.limit.toNat (watch.step checks quota.limit now)
        (⟨w.start, w.later ++ [now]⟩ :: older) ∧
      (Within quota.limit.toNat rateWindow (watch.step checks quota.limit now).accepted ↔
        Orderly checks quota.limit.toNat (⟨w.start, w.later ++ [now]⟩ :: older)) := by
  obtain ⟨count, same, counted⟩ := follows.entry
  obtain ⟨next, entry, value, answer⟩ := checkEntry_joins quota counted joins fits
  have next_counted : Counted (some (w.start, next)) (⟨w.start, w.later ++ [now]⟩ :: older) := by
    refine ⟨next, rfl, ?_⟩
    rw [value, calls_snoc, List.length_append, List.length_singleton]
  rw [orderly_joins, Watch.step, same]
  simp only [entry, answer]
  by_cases few : w.calls.length < quota.limit.toNat
  · simp only [few, if_true, forall_const]
    constructor
    · refine ⟨next_counted, ?_⟩
      have short : (w.calls ++ [now]).length ≤ quota.limit.toNat := by
        rw [List.length_append]
        exact few
      rw [follows.accepted, admitted, admitted, calls_snoc, List.take_of_length_le short,
        List.take_of_length_le few.le, List.append_assoc]
    · rw [within_snoc (follows.latest spaced), follows.recent_joins spaced joins]
      rw [Nat.min_eq_right few.le]
      constructor
      · rintro ⟨-, room⟩
        exact ⟨orderly, by omega, fits⟩
      · rintro ⟨-, room, -⟩
        exact ⟨within, by omega⟩
  · simp only [few, if_false, false_implies, true_and]
    constructor
    · refine ⟨next_counted, ?_⟩
      rw [follows.accepted, admitted, admitted, calls_snoc,
        List.take_append_of_le_length (Nat.not_lt.mp few)]
    · exact iff_of_true within ⟨orderly, fits⟩

/-- Where the counter wraps, one call too many is let through. -/
theorem Follows.wraps (follows : Follows quota.limit.toNat watch (w :: older))
    (spaced : Spaced now (w :: older)) (joins : ¬ w.start + rateWindow < now)
    (full : w.calls.length = 2 ^ 32 - 1) :
    ¬ Within quota.limit.toNat rateWindow (watch.step false quota.limit now).accepted := by
  obtain ⟨count, same, counted⟩ := follows.entry
  have last : count.toNat = 2 ^ 32 - 1 := by rw [counted, full, Nat.min_self]
  have small := quota.limit_lt
  rw [Watch.step, same]
  simp only [checkEntry_wraps last joins, if_true]
  rw [within_snoc (follows.latest spaced), follows.recent_joins spaced joins, full,
    Nat.min_eq_left small.le]
  rintro ⟨-, room⟩
  omega

theorem Follows.step {windows : List CallWindow}
    (follows : Follows quota.limit.toNat watch windows) (spaced : Spaced now windows)
    (orderly : Orderly checks quota.limit.toNat windows)
    (within : Within quota.limit.toNat rateWindow watch.accepted) :
    (Orderly checks quota.limit.toNat (place windows now) →
      Follows quota.limit.toNat (watch.step checks quota.limit now) (place windows now)) ∧
    (Within quota.limit.toNat rateWindow (watch.step checks quota.limit now).accepted ↔
      Orderly checks quota.limit.toNat (place windows now)) := by
  cases windows with
  | nil =>
    have opened := follows.opens spaced orderly within (fun w none => by cases none)
    exact ⟨fun _ => opened.1, opened.2⟩
  | cons w older =>
    rw [place]
    split
    · rename_i passed
      have opened := follows.opens spaced orderly within (fun v newest => by
        cases newest
        exact passed)
      exact ⟨fun _ => opened.1, opened.2⟩
    · rename_i joins
      by_cases fits : checks = false → w.calls.length + 1 < 2 ^ 32
      · have joined := follows.joins spaced orderly within joins fits
        exact ⟨fun _ => joined.1, joined.2⟩
      · obtain ⟨rfl, long⟩ := Classical.not_imp.mp fits
        have bound := orderly.unwrapped rfl w List.mem_cons_self
        have full : w.calls.length = 2 ^ 32 - 1 := by omega
        have wrapped : ¬ Orderly false quota.limit.toNat (⟨w.start, w.later ++ [now]⟩ :: older) :=
          fun orderly => long ((orderly_joins.mp orderly).2.2 rfl)
        exact ⟨fun orderly => absurd orderly wrapped,
          iff_of_false (follows.wraps spaced joins full) wrapped⟩

theorem orderly_of_place {windows : List CallWindow} (positive : 0 < limit)
    (orderly : Orderly checks limit (place windows now)) : Orderly checks limit windows := by
  cases windows with
  | nil => exact ((orderly_opens positive).mp orderly).1
  | cons w older =>
    rw [place] at orderly
    split at orderly
    · exact ((orderly_opens positive).mp orderly).1
    · exact (orderly_joins.mp orderly).1

theorem Watch.within_of_step
    (within : Within limit rateWindow (watch.step checks quota.limit now).accepted) :
    Within limit rateWindow watch.accepted := by
  rw [Watch.step] at within
  dsimp only at within
  split at within
  · exact within.left
  · exact within

def Watch.start : Watch := ⟨none, []⟩

/-- The accepted times keep the sliding law exactly when the windows are orderly. -/
theorem watch_windows (checks : Bool) (quota : Quota) {times : List Nat}
    (ordered : times.Pairwise (· ≤ ·)) :
    (Orderly checks quota.limit.toNat (windows times) → Follows quota.limit.toNat
      (times.foldl (Watch.step checks quota.limit) .start) (windows times)) ∧
    (Within quota.limit.toNat rateWindow
        (times.foldl (Watch.step checks quota.limit) .start).accepted ↔
      Orderly checks quota.limit.toNat (windows times)) := by
  induction times using List.reverseRecOn with
  | nil =>
    refine ⟨fun _ => ⟨rfl, rfl⟩, iff_of_true within_nil ⟨trivial, fun _ w member => ?_⟩⟩
    cases member
  | append_singleton times now ih =>
    obtain ⟨ordered, -, before⟩ := List.pairwise_append.mp ordered
    have latest : ∀ x ∈ times, x ≤ now := fun x member => before x member now List.mem_cons_self
    obtain ⟨follows, exact_law⟩ := ih ordered
    rw [windows_snoc, List.foldl_append, List.foldl_cons, List.foldl_nil]
    by_cases orderly : Orderly checks quota.limit.toNat (windows times)
    · exact (follows orderly).step (spaced_windows ordered latest) orderly (exact_law.mpr orderly)
    · have broken : ¬ Orderly checks quota.limit.toNat (place (windows times) now) :=
        fun after => orderly (orderly_of_place quota.limit_pos after)
      refine ⟨fun after => absurd after broken, iff_of_false (fun within => ?_) broken⟩
      exact orderly (exact_law.mp (Watch.within_of_step within))

/-- The times of the calls that draw on the quota of an address. -/
def callTimes (quota : Quota) (ip : IpAddr) (calls : List LimiterCall) : List Nat :=
  (calls.filter (LimiterCall.concerns quota ip)).map LimiterCall.now

/-- The times at which a call on the quota of an address was let through. -/
def acceptedTimes (quota : Quota) (ip : IpAddr) (answers : List Answered) : List Nat :=
  (answers.filter fun a => a.concerns quota ip ∧ a.answer = some true).map Answered.now

theorem acceptedTimes_cons (quota : Quota) (ip : IpAddr) (a : Answered) (rest : List Answered) :
    acceptedTimes quota ip (a :: rest) =
      (if a.concerns quota ip ∧ a.answer = some true then [a.now] else []) ++
        acceptedTimes quota ip rest := by
  rw [acceptedTimes, List.filter_cons]
  by_cases accepted : a.concerns quota ip ∧ a.answer = some true
  · rw [if_pos (decide_eq_true accepted), if_pos accepted]
    rfl
  · rw [if_neg (by simpa using accepted), if_neg accepted]
    rfl

theorem Ideal.checkIn_self (checks : Bool) (e : Ideal) (ip : IpAddr) (now : Nat) (quota : Quota) :
    (e.checkIn checks ip now quota).1 quota ip =
      some (checkEntry checks quota.limit (e quota ip) now).1 := if_pos ⟨rfl, rfl⟩

theorem Ideal.checkIn_other (checks : Bool) (e : Ideal) (now : Nat)
    (apart : ¬ (q = quota ∧ i = ip)) : (e.checkIn checks i now q).1 quota ip = e quota ip :=
  if_neg fun same => apart ⟨same.1.symm, same.2.symm⟩

/-- What an address is let through is decided by its own calls and its own entry. -/
theorem Ideal.accepted_answers (checks : Bool) (e : Ideal) (calls : List LimiterCall)
    (quota : Quota) (ip : IpAddr) (accepted : List Nat) :
    accepted ++ acceptedTimes quota ip (e.answers checks calls) =
      ((callTimes quota ip calls).foldl (Watch.step checks quota.limit)
        ⟨e quota ip, accepted⟩).accepted := by
  induction calls generalizing e accepted with
  | nil => exact List.append_nil _
  | cons call rest ih =>
    cases call with
    | gc now => exact ih e accepted
    | check q i now =>
      rw [Ideal.answers]
      dsimp only
      rw [acceptedTimes_cons]
      by_cases own : q = quota ∧ i = ip
      · obtain ⟨rfl, rfl⟩ := own
        have times : callTimes q i (.check q i now :: rest) = now :: callTimes q i rest := by
          simp [callTimes, LimiterCall.concerns, LimiterCall.now]
        rw [times, List.foldl_cons, Watch.step]
        dsimp only
        rw [← Ideal.checkIn_self, ← ih, ← List.append_assoc]
        congr 1
        by_cases let_through : (checkEntry checks q.limit (e q i) now).2 = some true
        · rw [if_pos ⟨by simp [Answered.concerns], let_through⟩, if_pos let_through]
        · rw [if_neg (fun both => let_through both.2), if_neg let_through, List.append_nil]
      · have times : callTimes quota ip (.check q i now :: rest) = callTimes quota ip rest := by
          simp [callTimes, LimiterCall.concerns, own]
        have foreign : ¬ (Answered.concerns quota ip ⟨q, i, now, (e.checkIn checks i now q).2⟩ ∧
            (e.checkIn checks i now q).2 = some true) :=
          fun both => own (by simpa [Answered.concerns] using both.1)
        rw [times, if_neg foreign, List.nil_append, ih, Ideal.checkIn_other checks e now own]

/-- A call for another address. -/
def LimiterCall.elsewhere (ip : IpAddr) : LimiterCall → Bool
  | check _ i _ => i ≠ ip
  | gc _ => false

theorem Ideal.answers_of_agree (checks : Bool) (e other : Ideal) (ip : IpAddr)
    (agree : ∀ quota, e quota ip = other quota ip) (calls : List LimiterCall) :
    (e.answers checks calls).filter (fun a => a.ip = ip) =
      other.answers checks (calls.filter fun call => !call.elsewhere ip) := by
  induction calls generalizing e other with
  | nil => rfl
  | cons call rest ih =>
    cases call with
    | gc now => exact ih e other agree
    | check q i now =>
      by_cases own : i = ip
      · subst own
        have kept : (LimiterCall.check q i now :: rest).filter (fun call => !call.elsewhere i) =
            .check q i now :: rest.filter (fun call => !call.elsewhere i) :=
          List.filter_cons_of_pos (by simp [LimiterCall.elsewhere])
        have answer : (e.checkIn checks i now q).2 = (other.checkIn checks i now q).2 := by
          rw [checkIn, agree q]
          rfl
        have after (quota : Quota) : (e.checkIn checks i now q).1 quota i =
            (other.checkIn checks i now q).1 quota i := by
          rw [checkIn, checkIn, agree q]
          exact if_congr Iff.rfl rfl (agree quota)
        rw [kept, Ideal.answers, Ideal.answers]
        dsimp only
        rw [List.filter_cons_of_pos (by simp), ih _ _ after, answer]
      · have dropped : (LimiterCall.check q i now :: rest).filter (fun call => !call.elsewhere ip) =
            rest.filter (fun call => !call.elsewhere ip) :=
          List.filter_cons_of_neg (by simp [LimiterCall.elsewhere, own])
        have after (quota : Quota) : (e.checkIn checks i now q).1 quota ip = other quota ip :=
          (Ideal.checkIn_other checks e now fun same => own same.2).trans (agree quota)
        rw [dropped, Ideal.answers]
        dsimp only
        rw [List.filter_cons_of_neg (by simpa using own), ih _ _ after]

/-- The calls of an address are answered as if there were no others. -/
theorem RateLimiter.answers_own (checks : Bool) {calls : List LimiterCall}
    (ordered : (calls.map LimiterCall.now).Pairwise (· ≤ ·)) (ip : IpAddr) :
    (RateLimiter.new.answers checks calls).filter (fun a => a.ip = ip) =
      RateLimiter.new.answers checks (calls.filter fun call => !call.elsewhere ip) := by
  have own : ((calls.filter fun call => !call.elsewhere ip).map LimiterCall.now).Pairwise (· ≤ ·) :=
    ordered.sublist (List.filter_sublist.map _)
  rw [RateLimiter.answers_new checks ordered, RateLimiter.answers_new checks own]
  exact Ideal.answers_of_agree checks .none .none ip (fun _ => rfl) calls

/-- In every interval of the window's width at most the limit of an address's calls are let
through, and calls for other addresses do not matter. -/
def RateLimited (checks : Bool) (calls : List LimiterCall) (ip : IpAddr) : Prop :=
  (∀ quota : Quota, Within quota.limit.toNat rateWindow
    (acceptedTimes quota ip (RateLimiter.new.answers checks calls))) ∧
  (RateLimiter.new.answers checks calls).filter (fun a => a.ip = ip) =
    RateLimiter.new.answers checks (calls.filter fun call => !call.elsewhere ip)

/-- The limiter keeps the sliding law exactly where every window of the address is calm. -/
theorem rate_limited_iff (checks : Bool) (calls : List LimiterCall) (ip : IpAddr)
    (ordered : (calls.map LimiterCall.now).Pairwise (· ≤ ·)) :
    RateLimited checks calls ip ↔
      ∀ quota : Quota, Orderly checks quota.limit.toNat (windows (callTimes quota ip calls)) := by
  have law (quota : Quota) : Within quota.limit.toNat rateWindow
      (acceptedTimes quota ip (RateLimiter.new.answers checks calls)) ↔
        Orderly checks quota.limit.toNat (windows (callTimes quota ip calls)) := by
    have times : (callTimes quota ip calls).Pairwise (· ≤ ·) :=
      ordered.sublist (List.filter_sublist.map _)
    have watched := Ideal.accepted_answers checks .none calls quota ip []
    rw [RateLimiter.answers_new checks ordered, ← List.nil_append (acceptedTimes _ _ _), watched]
    exact (watch_windows checks quota times).2
  constructor
  · rintro ⟨within, -⟩ quota
    exact (law quota).mp (within quota)
  · intro orderly
    exact ⟨fun quota => (law quota).mpr (orderly quota), RateLimiter.answers_own checks ordered ip⟩

/-- Six calls at once share one window, which is calm. -/
theorem rate_limited_iff_at_once :
    RateLimited true (List.replicate 6 (.check .syn (.v4 0x0A000001) 0)) (.v4 0x0A000001) := by
  apply (rate_limited_iff true _ _ (by decide)).mpr
  intro quota
  cases quota with
  | syn =>
    change Orderly true 5 [⟨0, [0, 0, 0, 0, 0]⟩]
    refine ⟨⟨fun k a few _ => ?_, trivial⟩, fun unchecked => by cases unchecked⟩
    change k + 1 + 0 ≤ 5
    exact few
  | cmd =>
    change Orderly true 30 []
    exact ⟨trivial, fun unchecked => by cases unchecked⟩

/-- One call, four at the end of its window and five right after it. -/
theorem window_restart_burst :
    ¬ RateLimited true
      (([0] ++ List.replicate 4 rateWindow ++ List.replicate 5 (rateWindow + 1)).map
        (.check .syn (.v4 0x0A000001)))
      (.v4 0x0A000001) := by
  rintro ⟨within, -⟩
  have burst := within .syn rateWindow
  rw [RateLimiter.answers_new true (by decide)] at burst
  revert burst
  decide

end LanLink.Daemon
