import LanLink.Core.Words
import LanLink.Daemon.Connection
import Mathlib.Data.List.Basic

/-! The rate limiter over whole runs. A call that overflows its counter panics in a build
with overflow checks; it gives no answer and leaves the limiter as it was, and any calls may
follow. The purged maps are compared with an ideal limiter that never forgets an entry. -/
namespace LanLink.Daemon
open Words

/-- Start of the window and number of calls in it. -/
abbrev Entry := Nat × UInt32

/-- One call for an address with the given entry. -/
def checkEntry (checks : Bool) (limit : UInt32) (found : Option Entry) (now : Nat) :
    Entry × Option Bool :=
  let entry := found.getD (now, 0)
  if now - entry.1 > rateWindow then ((now, 1), some true)
  else match addWord checks 32 entry.2.toNat 1 with
    | some count => ((entry.1, count.toUInt32), some (count.toUInt32 ≤ limit))
    | none => (entry, none)

def Counts.checkIn (checks : Bool) (counts : Counts) (limit : UInt32) (ip : IpAddr) (now : Nat) :
    Counts × Option Bool :=
  let (entry, answer) := checkEntry checks limit counts[ip]? now
  (counts.insert ip entry, answer)

/-- Without overflow checks this is the check of the connection handling. -/
theorem Counts.checkIn_false (counts : Counts) (limit : UInt32) (ip : IpAddr) (now : Nat) :
    counts.checkIn false limit ip now =
      ((counts.check limit ip now).1, some (counts.check limit ip now).2) := by
  have word (n : UInt32) : ((n.toNat + 1) % 2 ^ 32).toUInt32 = n + 1 := by
    apply UInt32.toNat_inj.mp
    rw [toUInt32_toNat (Nat.mod_lt _ (by decide)), UInt32.toNat_add]
    rfl
  rw [checkIn, checkEntry, Counts.check]
  simp only [addWord_unchecked, word]
  split <;> rfl

theorem Counts.getElem?_checkIn (checks : Bool) (counts : Counts) (limit : UInt32)
    (ip i : IpAddr) (now : Nat) : (counts.checkIn checks limit ip now).1[i]? =
      if i = ip then some (checkEntry checks limit counts[ip]? now).1 else counts[i]? := by
  rw [checkIn, Std.ExtHashMap.getElem?_insert]
  refine if_congr ?_ rfl rfl
  rw [beq_iff_eq]
  exact eq_comm

/-- The two kinds of calls, with a map and a limit each. -/
inductive Quota where
  | syn
  | cmd
  deriving DecidableEq

def Quota.limit : Quota → UInt32
  | syn => synRateLimit
  | cmd => cmdRateLimit

def RateLimiter.checkSynIn (checks : Bool) (r : RateLimiter) (ip : IpAddr) (now : Nat) :
    RateLimiter × Option Bool :=
  let (synCounts, answer) := r.synCounts.checkIn checks synRateLimit ip now
  ({ r with synCounts }, answer)

def RateLimiter.checkCmdIn (checks : Bool) (r : RateLimiter) (ip : IpAddr) (now : Nat) :
    RateLimiter × Option Bool :=
  let (cmdCounts, answer) := r.cmdCounts.checkIn checks cmdRateLimit ip now
  ({ r with cmdCounts }, answer)

inductive LimiterCall where
  | check (quota : Quota) (ip : IpAddr) (now : Nat)
  | gc (now : Nat)

namespace LimiterCall

def now : LimiterCall → Nat
  | check _ _ now => now
  | gc now => now

def isCheck : LimiterCall → Bool
  | check _ _ _ => true
  | gc _ => false

/-- The calls that draw on the quota of an address. -/
def concerns (quota : Quota) (ip : IpAddr) : LimiterCall → Bool
  | check q i _ => q = quota ∧ i = ip
  | gc _ => false

end LimiterCall

/-- A call that was answered. -/
structure Answered where
  quota : Quota
  ip : IpAddr
  now : Nat
  answer : Option Bool
  deriving DecidableEq

def Answered.concerns (quota : Quota) (ip : IpAddr) (a : Answered) : Bool :=
  a.quota = quota ∧ a.ip = ip

namespace RateLimiter

def checkIn (checks : Bool) (r : RateLimiter) (ip : IpAddr) (now : Nat) :
    Quota → RateLimiter × Option Bool
  | .syn => r.checkSynIn checks ip now
  | .cmd => r.checkCmdIn checks ip now

/-- The answers of a sequence of calls, in order. -/
def answers (checks : Bool) (r : RateLimiter) : List LimiterCall → List Answered
  | [] => []
  | .check quota ip now :: rest =>
    let (r, answer) := r.checkIn checks ip now quota
    ⟨quota, ip, now, answer⟩ :: answers checks r rest
  | .gc now :: rest => answers checks (r.gc now) rest

def counts (r : RateLimiter) : Quota → Counts
  | .syn => r.synCounts
  | .cmd => r.cmdCounts

theorem counts_checkIn (checks : Bool) (r : RateLimiter) (ip : IpAddr) (now : Nat) (quota : Quota) :
    (r.checkIn checks ip now quota).2 = (checkEntry checks quota.limit (r.counts quota)[ip]? now).2 ∧
      ∀ (q : Quota) (i : IpAddr), ((r.checkIn checks ip now quota).1.counts q)[i]? =
        if q = quota ∧ i = ip then
          some (checkEntry checks quota.limit (r.counts quota)[ip]? now).1
        else (r.counts q)[i]? := by
  cases quota with
  | syn =>
    refine ⟨rfl, fun q i => ?_⟩
    cases q with
    | syn =>
      have own := Counts.getElem?_checkIn checks r.synCounts synRateLimit ip i now
      exact own.trans (if_congr (by simp) rfl rfl)
    | cmd => simp [checkIn, checkSynIn, counts]
  | cmd =>
    refine ⟨rfl, fun q i => ?_⟩
    cases q with
    | syn => simp [checkIn, checkCmdIn, counts]
    | cmd =>
      have own := Counts.getElem?_checkIn checks r.cmdCounts cmdRateLimit ip i now
      exact own.trans (if_congr (by simp) rfl rfl)

theorem counts_gc (r : RateLimiter) (now : Nat) (quota : Quota) (ip : IpAddr) :
    ((r.gc now).counts quota)[ip]? =
      (r.counts quota)[ip]?.filter fun entry => now - entry.1 < 2 * rateWindow := by
  cases quota <;> simp [gc, counts]

end RateLimiter

/-- The entries of an ideal limiter, one for each quota of an address, never purged. -/
abbrev Ideal := Quota → IpAddr → Option Entry

namespace Ideal

def none : Ideal := fun _ _ => .none

def checkIn (checks : Bool) (e : Ideal) (ip : IpAddr) (now : Nat) (quota : Quota) :
    Ideal × Option Bool :=
  let (entry, answer) := checkEntry checks quota.limit (e quota ip) now
  (fun q i => if q = quota ∧ i = ip then some entry else e q i, answer)

def answers (checks : Bool) (e : Ideal) : List LimiterCall → List Answered
  | [] => []
  | .check quota ip now :: rest =>
    let (e, answer) := e.checkIn checks ip now quota
    ⟨quota, ip, now, answer⟩ :: answers checks e rest
  | .gc _ :: rest => answers checks e rest

end Ideal

/-- An entry that is missing is one that every later call restarts. -/
def Forgets (now : Nat) (found : Option Entry) (entry : Option Entry) : Prop :=
  found = entry ∨ found = none ∧ ∃ start count, entry = some (start, count) ∧
    start + 2 * rateWindow ≤ now

theorem Forgets.later (forgets : Forgets before found entry) (ordered : before ≤ now) :
    Forgets now found entry := by
  refine forgets.imp id ?_
  rintro ⟨missing, start, count, same, old⟩
  exact ⟨missing, start, count, same, old.trans ordered⟩

theorem Quota.limit_pos (quota : Quota) : 0 < quota.limit.toNat := by cases quota <;> decide

theorem checkEntry_first (checks : Bool) (quota : Quota) (now : Nat) :
    checkEntry checks quota.limit none now = ((now, 1), some true) := by
  have fits : (0 : UInt32).toNat + 1 < 2 ^ 32 := by decide
  have allowed : decide ((1 : UInt32) ≤ quota.limit) = true := by cases quota <;> decide
  simp only [checkEntry, Option.getD_none, Nat.sub_self]
  rw [if_neg (by decide), addWord_of_lt fits]
  exact Prod.ext rfl (congrArg some allowed)

theorem checkEntry_restart (old : start + rateWindow < now) (checks : Bool) (limit count : UInt32) :
    checkEntry checks limit (some (start, count)) now = ((now, 1), some true) := by
  rw [checkEntry]
  exact if_pos (Nat.lt_sub_iff_add_lt'.mpr old)

/-- A first call and a call that restarts the window leave the same entry. -/
theorem Forgets.check (forgets : Forgets now found entry) (checks : Bool) (quota : Quota) :
    checkEntry checks quota.limit found now = checkEntry checks quota.limit entry now := by
  rcases forgets with same | ⟨rfl, start, count, rfl, old⟩
  · rw [same]
  · have restarts : start + rateWindow < now := by
      have positive : 0 < rateWindow := by decide
      omega
    rw [checkEntry_first, checkEntry_restart restarts]

theorem Forgets.gc (forgets : Forgets now found entry) :
    Forgets now (found.filter fun e => now - e.1 < 2 * rateWindow) entry := by
  rcases forgets with rfl | ⟨rfl, old⟩
  · cases found with
    | none => exact .inl rfl
    | some e =>
      by_cases kept : now - e.1 < 2 * rateWindow
      · exact .inl (by simp [kept])
      · have positive : 0 < 2 * rateWindow := by decide
        have old : e.1 + 2 * rateWindow ≤ now := by omega
        exact .inr ⟨by simpa using Nat.not_lt.mp kept, e.1, e.2, rfl, old⟩
  · exact .inr ⟨rfl, old⟩

/-- The limiter forgets entries of the ideal one only where that changes nothing. -/
def Simulates (now : Nat) (r : RateLimiter) (e : Ideal) : Prop :=
  ∀ quota ip, Forgets now (r.counts quota)[ip]? (e quota ip)

theorem Simulates.check {r : RateLimiter} {e : Ideal} (simulates : Simulates now r e)
    (checks : Bool) (ip : IpAddr) (quota : Quota) :
    (r.checkIn checks ip now quota).2 = (e.checkIn checks ip now quota).2 ∧
      Simulates now (r.checkIn checks ip now quota).1 (e.checkIn checks ip now quota).1 := by
  obtain ⟨answer, counts⟩ := r.counts_checkIn checks ip now quota
  have same := (simulates quota ip).check checks quota
  refine ⟨answer.trans (congrArg Prod.snd same), fun q i => ?_⟩
  rw [counts q i, Ideal.checkIn, same]
  by_cases own : q = quota ∧ i = ip
  · simp only [own, and_self, if_true]
    exact .inl rfl
  · simp only [own, if_false]
    exact simulates q i

theorem Simulates.gc {r : RateLimiter} {e : Ideal} (simulates : Simulates now r e) :
    Simulates now (r.gc now) e := by
  intro quota ip
  rw [r.counts_gc]
  exact (simulates quota ip).gc

theorem Simulates.later {r : RateLimiter} {e : Ideal} (simulates : Simulates before r e)
    (ordered : before ≤ now) : Simulates now r e :=
  fun quota ip => (simulates quota ip).later ordered

theorem Simulates.answers {r : RateLimiter} {e : Ideal} (simulates : Simulates start r e)
    (checks : Bool) {calls : List LimiterCall}
    (ordered : (start :: calls.map LimiterCall.now).Pairwise (· ≤ ·)) :
    r.answers checks calls = e.answers checks calls := by
  induction calls generalizing start r e with
  | nil => rfl
  | cons call rest ih =>
    obtain ⟨first, rest_ordered⟩ := List.pairwise_cons.mp ordered
    have here := simulates.later (first call.now List.mem_cons_self)
    cases call with
    | check quota ip now =>
      obtain ⟨same, after⟩ := here.check checks ip quota
      have tail := ih after rest_ordered
      exact congrArg₂ List.cons (congrArg (Answered.mk quota ip now) same) tail
    | gc now => exact ih here.gc rest_ordered

theorem Simulates.new : Simulates now RateLimiter.new Ideal.none :=
  fun quota _ => .inl (by cases quota <;> exact Std.ExtHashMap.getElem?_empty)

/-- From the start the limiter answers as the ideal one. -/
theorem RateLimiter.answers_new (checks : Bool) {calls : List LimiterCall}
    (ordered : (calls.map LimiterCall.now).Pairwise (· ≤ ·)) :
    RateLimiter.new.answers checks calls = Ideal.none.answers checks calls := by
  apply Simulates.new.answers checks
  exact List.pairwise_cons.mpr ⟨fun _ _ => Nat.zero_le _, ordered⟩

theorem Ideal.answers_filter (checks : Bool) (e : Ideal) (calls : List LimiterCall) :
    e.answers checks (calls.filter LimiterCall.isCheck) = e.answers checks calls := by
  induction calls generalizing e with
  | nil => rfl
  | cons call rest ih =>
    cases call with
    | check quota ip now => exact congrArg (List.cons _) (ih _)
    | gc now => exact ih e

/-- Cleaning up changes no answer, wherever it happens between the calls. -/
theorem RateLimiter.gc_invisible (checks : Bool) (calls : List LimiterCall)
    (ordered : (calls.map LimiterCall.now).Pairwise (· ≤ ·)) :
    RateLimiter.new.answers checks calls =
      RateLimiter.new.answers checks (calls.filter LimiterCall.isCheck) := by
  have kept : ((calls.filter LimiterCall.isCheck).map LimiterCall.now).Pairwise (· ≤ ·) :=
    ordered.sublist (List.filter_sublist.map _)
  rw [RateLimiter.answers_new checks ordered, RateLimiter.answers_new checks kept]
  exact (Ideal.answers_filter checks Ideal.none calls).symm

/-- A cleanup drops the only entry just before a call. -/
theorem RateLimiter.gc_invisible_dropped :
    RateLimiter.new.answers true
        [.check .syn (.v4 0x0A000001) 0, .gc (2 * rateWindow),
          .check .syn (.v4 0x0A000001) (2 * rateWindow)] =
      RateLimiter.new.answers true
        [.check .syn (.v4 0x0A000001) 0, .check .syn (.v4 0x0A000001) (2 * rateWindow)] :=
  RateLimiter.gc_invisible true _ (by decide)

end LanLink.Daemon
