import Mathlib.Data.List.Nodup
import N64Emu.Scheduler
import N64Emu.Runs

/-!
# Histories of the scheduler

What was scheduled is pending, has fired or was cancelled, each event once. A
dispatch fires the pending events whose time has come, ordered by time and
token. Events are counted, so nothing hangs on tokens being distinct; they are
until the counter of tokens wraps.
-/

set_option autoImplicit false

namespace N64

open Words Runs

namespace ScheduledEvent

def Before (a b : ScheduledEvent) : Prop :=
  a.when_ < b.when_ ∨ a.when_ = b.when_ ∧ a.token ≤ b.token

theorem Before.trans {a b c : ScheduledEvent} (h : Before a b) (k : Before b c) : Before a c := by
  rcases h with earlier | ⟨same, token⟩
  · rcases k with earlier' | ⟨same', _⟩
    · exact Or.inl (BitVec.lt_trans earlier earlier')
    · exact Or.inl (same' ▸ earlier)
  · rcases k with earlier' | ⟨same', token'⟩
    · exact Or.inl (same ▸ earlier')
    · exact Or.inr ⟨same.trans same', BitVec.le_trans token token'⟩

end ScheduledEvent

namespace Scheduler

open ScheduledEvent

inductive Op where
  | scheduleAt (when_ : Cycles) (kind : EventKind)
  | scheduleIn (delay : Cycles) (kind : EventKind)
  | cancel (token : U64)
  | advance (delta : Cycles)
  | dispatchDue

def perform : Op → Scheduler → Scheduler
  | .scheduleAt when_ kind, q => (q.scheduleAt when_ kind).2
  | .scheduleIn delay kind, q => (q.scheduleIn delay kind).2
  | .cancel token, q => (q.cancel token).2
  | .advance delta, q => q.advance delta
  | .dispatchDue, q => q.dispatchDue.2

def scheduledBy : Op → Scheduler → List ScheduledEvent
  | .scheduleAt when_ kind, q => [{ when_ := when_, kind := kind, token := q.nextToken }]
  | .scheduleIn delay kind, q => [{ when_ := q.now + delay, kind := kind, token := q.nextToken }]
  | _, _ => []

def firedBy : Op → Scheduler → List ScheduledEvent
  | .dispatchDue, q => q.dispatchDue.1
  | _, _ => []

def cancelledBy : Op → Scheduler → List ScheduledEvent
  | .cancel token, q => (q.queue.filter fun e => e.ev.token = token && !e.cancelled).map (·.ev)
  | _, _ => []

def events (q : Scheduler) : List ScheduledEvent := q.queue.map (·.ev)

/-- The queue is in order and nothing in it is marked as cancelled. -/
structure Ordered (queue : List Entry) : Prop where
  sorted : queue.Pairwise fun a b => Before a.ev b.ev
  live : ∀ e ∈ queue, e.cancelled = false

section Queue

variable {e o : Entry} {queue : List Entry}

theorem before_of_after (h : o.after e = true) : Before e.ev o.ev := by
  unfold Entry.after at h
  by_cases same : o.ev.when_ = e.ev.when_
  · rw [if_neg (by simp [same])] at h
    exact Or.inr ⟨same.symm, BitVec.le_of_lt (of_decide_eq_true h)⟩
  · rw [if_pos same] at h
    exact Or.inl (of_decide_eq_true h)

theorem before_of_not_after (h : ¬ o.after e = true) : Before o.ev e.ev := by
  unfold Entry.after at h
  by_cases same : o.ev.when_ = e.ev.when_
  · rw [if_neg (by simp [same]), decide_eq_true_eq, BitVec.not_lt] at h
    exact Or.inr ⟨same, h⟩
  · rw [if_pos same, decide_eq_true_eq, BitVec.not_lt] at h
    exact Or.inl (BitVec.lt_of_le_ne h same)

theorem push_perm (e : Entry) (queue : List Entry) : (push e queue).Perm (e :: queue) := by
  induction queue with
  | nil => exact List.Perm.refl _
  | cons o rest ih =>
    rw [push]
    split
    · exact List.Perm.refl _
    · exact (ih.cons o).trans (List.Perm.swap e o rest)

theorem mem_push {x : Entry} : x ∈ push e queue ↔ x = e ∨ x ∈ queue := by
  rw [(push_perm e queue).mem_iff, List.mem_cons]

theorem ordered_push (h : Ordered queue) (live : e.cancelled = false) : Ordered (push e queue) := by
  refine ⟨?_, ?_⟩
  · have sorted := h.sorted
    clear h
    induction queue with
    | nil => exact List.pairwise_singleton _ e
    | cons o rest ih =>
      obtain ⟨first, tail⟩ := List.pairwise_cons.mp sorted
      rw [push]
      by_cases later : o.after e = true
      · rw [if_pos later]
        have before := before_of_after later
        refine List.pairwise_cons.mpr ⟨?_, sorted⟩
        intro x member
        rcases List.mem_cons.mp member with rfl | behind
        · exact before
        · exact before.trans (first x behind)
      · rw [if_neg later]
        refine List.pairwise_cons.mpr ⟨?_, ih tail⟩
        intro x member
        rcases mem_push.mp member with rfl | behind
        · exact before_of_not_after later
        · exact first x behind
  · intro x member
    rcases mem_push.mp member with rfl | old
    · exact live
    · exact h.live x old

theorem ordered_filter (keep : Entry → Bool) (h : Ordered queue) : Ordered (queue.filter keep) :=
  ⟨h.sorted.filter keep, fun e member => h.live e (List.mem_of_mem_filter member)⟩

theorem ordered_tail (h : Ordered (e :: queue)) : Ordered queue :=
  ⟨(List.pairwise_cons.mp h.sorted).2, fun o member => h.live o (List.mem_cons_of_mem e member)⟩

theorem dueFrom_eq (now : Cycles) (h : Ordered queue) :
    dueFrom now queue = ((queue.filter fun e => e.ev.when_ ≤ now).map (·.ev),
      queue.filter fun e => now < e.ev.when_) := by
  induction queue with
  | nil => rfl
  | cons e rest ih =>
    obtain ⟨first, _⟩ := List.pairwise_cons.mp h.sorted
    have live : e.cancelled = false := h.live e List.mem_cons_self
    rw [dueFrom]
    by_cases future : now < e.ev.when_
    · have all : ∀ o ∈ e :: rest, now < o.ev.when_ := by
        intro o member
        rcases List.mem_cons.mp member with rfl | behind
        · exact future
        · rcases first o behind with later | ⟨same, _⟩
          · exact BitVec.lt_trans future later
          · exact same ▸ future
      have nothing : (e :: rest).filter (fun e => e.ev.when_ ≤ now) = [] := by
        apply List.filter_eq_nil_iff.mpr
        intro o member due
        exact BitVec.not_le.mpr (all o member) (of_decide_eq_true due)
      have kept : (e :: rest).filter (fun e => now < e.ev.when_) = e :: rest := by
        apply List.filter_eq_self.mpr
        intro o member
        exact decide_eq_true (all o member)
      rw [if_pos future, nothing, kept]
      rfl
    · have due : e.ev.when_ ≤ now := BitVec.not_lt.mp future
      rw [if_neg future, ih (ordered_tail h), List.filter_cons, List.filter_cons,
        if_pos (decide_eq_true due), if_neg (by simpa using due)]
      simp [live]

end Queue

section Operations

variable {q : Scheduler}

theorem ordered_perform (op : Op) (h : Ordered q.queue) : Ordered (perform op q).queue := by
  cases op with
  | scheduleAt when_ kind => exact ordered_push h rfl
  | scheduleIn delay kind => exact ordered_push h rfl
  | cancel token => exact ordered_filter _ h
  | advance delta => exact h
  | dispatchDue =>
    show Ordered (dueFrom q.now q.queue).2
    rw [dueFrom_eq q.now h]
    exact ordered_filter _ h

theorem dispatchDue_eq (h : Ordered q.queue) :
    q.dispatchDue.1 = q.events.filter fun ev => ev.when_ ≤ q.now := by
  show (dueFrom q.now q.queue).1 = _
  rw [dueFrom_eq q.now h, events, List.filter_map]
  rfl

theorem count_split (keep : Entry → Bool) (queue : List Entry) (ev : ScheduledEvent) :
    (queue.map (·.ev)).count ev = ((queue.filter keep).map (·.ev)).count ev +
      ((queue.filter fun e => !keep e).map (·.ev)).count ev := by
  rw [← List.count_append, ← List.map_append]
  exact (((List.filter_append_perm keep queue).map _).count_eq ev).symm

theorem count_push (e : Entry) (queue : List Entry) (ev : ScheduledEvent) :
    ((push e queue).map (·.ev)).count ev = (queue.map (·.ev)).count ev + [e.ev].count ev := by
  have pushed := ((push_perm e queue).map (·.ev)).count_eq ev
  rw [List.map_cons, ← List.singleton_append, List.count_append] at pushed
  rw [pushed, Nat.add_comm]

theorem conserves (op : Op) (h : Ordered q.queue) (ev : ScheduledEvent) :
    q.events.count ev + (scheduledBy op q).count ev =
      (perform op q).events.count ev + (firedBy op q).count ev + (cancelledBy op q).count ev := by
  cases op with
  | scheduleAt when_ kind =>
    exact (count_push { ev := { when_ := when_, kind := kind, token := q.nextToken } }
      q.queue ev).symm
  | scheduleIn delay kind =>
    exact (count_push { ev := { when_ := q.now + delay, kind := kind, token := q.nextToken } }
      q.queue ev).symm
  | cancel token =>
    have split := count_split (fun e => e.ev.token = token && !e.cancelled) q.queue ev
    exact split.trans (Nat.add_comm _ _)
  | advance delta => rfl
  | dispatchDue =>
    have popped := dueFrom_eq q.now h
    have fired : (dueFrom q.now q.queue).1 =
      (q.queue.filter fun e => e.ev.when_ ≤ q.now).map (·.ev) := congrArg Prod.fst popped
    have left : (dueFrom q.now q.queue).2 =
        q.queue.filter fun e => !decide (e.ev.when_ ≤ q.now) := by
      rw [popped]
      apply List.filter_congr
      intro e _
      rw [← decide_not]
      exact decide_eq_decide.mpr BitVec.not_le.symm
    have split := count_split (fun e => e.ev.when_ ≤ q.now) q.queue ev
    rw [← fired, ← left] at split
    exact split.trans (Nat.add_comm _ _)

theorem run_ordered (ops : List Op) (h : Ordered q.queue) :
    Ordered (Runs.run perform ops q).queue :=
  run_preserves (P := fun q : Scheduler => Ordered q.queue)
    (fun op _ k => ordered_perform op k) ops h

theorem run_conserves (ops : List Op) (h : Ordered q.queue) (ev : ScheduledEvent) :
    q.events.count ev + (Runs.trace perform scheduledBy ops q).count ev =
      (Runs.run perform ops q).events.count ev + (Runs.trace perform firedBy ops q).count ev +
        (Runs.trace perform cancelledBy ops q).count ev := by
  induction ops generalizing q with
  | nil => rfl
  | cons op ops ih =>
    have first := conserves op h ev
    have rest := ih (ordered_perform op h)
    simp only [Runs.trace, run_cons, List.count_append]
    omega

/-- Once a token is cancelled, an event that fires with it is a later one. -/
theorem cancelled_silent (h : Ordered q.queue) (token : U64) (later : List Op)
    {ev : ScheduledEvent} (same : ev.token = token) :
    (Runs.trace perform firedBy later (q.cancel token).2).count ev ≤
      (Runs.trace perform scheduledBy later (q.cancel token).2).count ev := by
  have ordered : Ordered (q.cancel token).2.queue := ordered_filter _ h
  have gone : (q.cancel token).2.events.count ev = 0 := by
    apply List.count_eq_zero.mpr
    intro member
    obtain ⟨e, kept, rfl⟩ := List.mem_map.mp member
    obtain ⟨old, keep⟩ := List.mem_filter.mp kept
    simp [same, h.live e old] at keep
  have total := run_conserves later ordered ev
  omega

theorem cancel_iff (h : Ordered q.queue) (token : U64) :
    (q.cancel token).1 = true ↔ ∃ ev ∈ q.events, ev.token = token := by
  show (q.queue.any fun e => e.ev.token = token && !e.cancelled) = true ↔ _
  rw [List.any_eq_true]
  constructor
  · rintro ⟨e, member, doomed⟩
    refine ⟨e.ev, List.mem_map_of_mem member, ?_⟩
    simpa using (Bool.and_eq_true_iff.mp doomed).1
  · rintro ⟨ev, member, same⟩
    obtain ⟨e, pending, rfl⟩ := List.mem_map.mp member
    refine ⟨e, pending, ?_⟩
    simp [same, h.live e pending]

theorem scheduledBy_token (op : Op) (q : Scheduler) :
    (scheduledBy op q).map (·.token) = [] ∧ (perform op q).nextToken = q.nextToken ∨
      (scheduledBy op q).map (·.token) = [q.nextToken] ∧
        (perform op q).nextToken = q.nextToken + 1 := by
  cases op with
  | scheduleAt when_ kind => exact Or.inr ⟨rfl, rfl⟩
  | scheduleIn delay kind => exact Or.inr ⟨rfl, rfl⟩
  | _ => exact Or.inl ⟨rfl, rfl⟩

theorem tokens_eq (ops : List Op) (q : Scheduler) :
    ∃ n, (Runs.trace perform scheduledBy ops q).map (·.token) =
      (List.range n).map fun i => q.nextToken + BitVec.ofNat 64 i := by
  induction ops generalizing q with
  | nil => exact ⟨0, rfl⟩
  | cons op ops ih =>
    obtain ⟨n, later⟩ := ih (perform op q)
    rw [Runs.trace, List.map_append, later]
    rcases scheduledBy_token op q with ⟨nothing, same⟩ | ⟨one, next⟩
    · rw [nothing, same]
      exact ⟨n, rfl⟩
    · have shift (i : ℕ) : q.nextToken + 1 + BitVec.ofNat 64 i =
          q.nextToken + BitVec.ofNat 64 (i + 1) := by
        rw [BitVec.add_assoc, Nat.add_comm i, BitVec.ofNat_add]
        rfl
      rw [one, next]
      refine ⟨n + 1, ?_⟩
      rw [List.range_succ_eq_map, List.map_cons, List.map_map]
      simp only [shift, Function.comp_def]
      rw [show q.nextToken + BitVec.ofNat 64 0 = q.nextToken from BitVec.add_zero _]
      rfl

theorem tokens_nodup (ops : List Op) (q : Scheduler)
    (few : (Runs.trace perform scheduledBy ops q).length < 2 ^ 64) :
    ((Runs.trace perform scheduledBy ops q).map (·.token)).Nodup := by
  obtain ⟨n, tokens⟩ := tokens_eq ops q
  have count : (Runs.trace perform scheduledBy ops q).length = n := by
    rw [← List.length_map (f := (·.token)), tokens, List.length_map, List.length_range]
  rw [count] at few
  rw [tokens]
  apply List.Nodup.map_on _ List.nodup_range
  intro i low j high same
  have low := List.mem_range.mp low
  have high := List.mem_range.mp high
  have equal : BitVec.ofNat 64 i = BitVec.ofNat 64 j := (BitVec.add_right_inj _).mp same
  have values := congrArg BitVec.toNat equal
  rw [BitVec.toNat_ofNat, BitVec.toNat_ofNat] at values
  omega

end Operations

section Rebuild

variable {e o : Entry} {queue : List Entry}

theorem not_after_of_before (h : Before o.ev e.ev) : ¬ o.after e = true := by
  unfold Entry.after
  rcases h with earlier | ⟨same, token⟩
  · rw [if_pos (BitVec.ne_of_lt earlier), decide_eq_true_eq, BitVec.not_lt]
    exact BitVec.le_of_lt earlier
  · rw [if_neg (not_not.mpr same), decide_eq_true_eq, BitVec.not_lt]
    exact token

theorem push_last (last : ∀ o ∈ queue, Before o.ev e.ev) : push e queue = queue ++ [e] := by
  induction queue with
  | nil => rfl
  | cons o queue ih =>
    have first := not_after_of_before (last o List.mem_cons_self)
    rw [push, if_neg first, ih fun x member => last x (List.mem_cons_of_mem o member)]
    rfl

theorem pushAll_sorted (kept : List Entry)
    (sorted : (queue ++ kept).Pairwise fun a b => Before a.ev b.ev) :
    kept.foldl (fun queue e => push e queue) queue = queue ++ kept := by
  induction kept generalizing queue with
  | nil => exact (List.append_nil queue).symm
  | cons e kept ih =>
    have last : ∀ o ∈ queue, Before o.ev e.ev := fun o member =>
      (List.pairwise_append.mp sorted).2.2 o member e List.mem_cons_self
    rw [List.append_cons] at sorted
    rw [List.foldl_cons, push_last last, ih sorted, List.append_assoc]
    rfl

theorem cancel_rebuilds {q : Scheduler} (h : Ordered q.queue) (token : U64) :
    (q.cancel token).2.queue = (q.queue.filter fun e => !(e.ev.token = token && !e.cancelled)).foldl
      (fun queue e => push e queue) [] := by
  symm
  apply pushAll_sorted
  exact (ordered_filter _ h).sorted

end Rebuild

/-- After any operations each event scheduled is pending, fired or cancelled,
once. The next dispatch fires the pending events whose time has come and no
others, in order; a cancel finds the pending events of its token, and none of
them fires later. -/
theorem scheduler_conserves_events (ops : List Op) :
    let q := Runs.run perform ops {}
    let scheduled := Runs.trace perform scheduledBy ops {}
    let fired := Runs.trace perform firedBy ops {}
    let cancelled := Runs.trace perform cancelledBy ops {}
    scheduled.Perm (q.events ++ fired ++ cancelled) ∧
      q.pending + fired.length + cancelled.length = scheduled.length ∧
      q.dispatchDue.1 = q.events.filter (fun ev => ev.when_ ≤ q.now) ∧
      q.dispatchDue.1.Pairwise Before ∧
      (∀ token, (q.cancel token).1 = true ↔ ∃ ev ∈ q.events, ev.token = token) ∧
      (∀ token later ev, ev.token = token →
        (Runs.trace perform firedBy later (q.cancel token).2).count ev ≤
          (Runs.trace perform scheduledBy later (q.cancel token).2).count ev) ∧
      (scheduled.length < 2 ^ 64 → (scheduled.map (·.token)).Nodup) := by
  intro q scheduled fired cancelled
  have empty : Ordered ({} : Scheduler).queue :=
    ⟨List.Pairwise.nil, fun _ member => absurd member List.not_mem_nil⟩
  have ordered : Ordered q.queue := run_ordered ops empty
  have conserved : scheduled.Perm (q.events ++ fired ++ cancelled) := by
    apply List.perm_iff_count.mpr
    intro ev
    have total := run_conserves ops empty ev
    rw [List.count_append, List.count_append]
    exact (Nat.zero_add _).symm.trans total
  have due := dispatchDue_eq ordered
  refine ⟨conserved, ?_, due, ?_, cancel_iff ordered, ?_, tokens_nodup ops {}⟩
  · have lengths := conserved.length_eq
    rw [List.length_append, List.length_append, events, List.length_map] at lengths
    exact lengths.symm
  · rw [due]
    exact (List.pairwise_map.mpr ordered.sorted).filter _
  · intro token later ev same
    exact cancelled_silent ordered token later same

/-- Two events, the later of them cancelled before its time. -/
theorem scheduler_conserves_events_two :
    let q := Runs.run perform [.scheduleAt 9 .User, .scheduleIn 3 .User, .cancel 1, .advance 4] {}
    q.dispatchDue.1 = q.events.filter (fun ev => ev.when_ ≤ q.now) ∧ q.dispatchDue.1.length = 1 :=
  ⟨(scheduler_conserves_events _).2.2.1, rfl⟩

end Scheduler

end N64
