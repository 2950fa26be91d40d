import Correlia.Lifetimes

/-!
# ReadCommitted — one `record_problem_incident` among committing transactions

The call is taken statement by statement at READ COMMITTED: the conditional insert, the locking
select (its snapshot, then the lock with the WHERE clause evaluated again) and the update.  Between
two of them other transactions commit: any of them, as long as the constraints of the table hold and
a row the call has locked stays as it is.
-/

namespace Correlia

open Lib

/-- What the primary key and the partial unique index enforce. -/
structure Consistent (t : List Incident) : Prop where
  ids : (t.map Incident.id).Nodup
  open_keys : OneOpenPerKey t

theorem consistent_tableAfter (ops : List Op) : Consistent (tableAfter ops) :=
  ⟨ids_nodup ops, oneOpenPerKey ops⟩

/-- Every call of the repository commits a consistent table. -/
theorem step_consistent {op : Op} {t t' : List Incident} {o : Answer} (ht : Consistent t)
    (h : step op t = .ok (t', o)) : Consistent t' :=
  ⟨step_ids_nodup ht.ids h, step_oneOpenPerKey ht.ids ht.open_keys h⟩

/-! ### The call statement by statement -/

/-- How far the call has come. -/
inductive Stage
  | start
  /-- The insert has met the open row of the key. -/
  | conflicted
  /-- The select has started and sees these rows, which it has yet to lock. -/
  | selecting (ids : List UUID)
  | locked (existing : Incident)
  | done (result : IncidentAggregationWriteResult)
  | failed (e : OpError)

structure CallState where
  table : List Incident
  stage : Stage

/-- After the insert: the call is done, or the open row of the key was in its way. -/
def afterInsert (t : List Incident) : Except OpError (List Incident × Option Incident) → CallState
  | .ok (t', some row) => ⟨t', .done (insertedResult row)⟩
  | .ok (t', none) => ⟨t', .conflicted⟩
  | .error e => ⟨t, .failed e⟩

/-- After the select. -/
def afterSelect (t : List Incident) : Except OpError Incident → CallState
  | .ok existing => ⟨t, .locked existing⟩
  | .error e => ⟨t, .failed e⟩

/-- After the update. -/
def afterUpdate (t : List Incident) :
    Except OpError (List Incident × IncidentAggregationWriteResult) → CallState
  | .ok (t', result) => ⟨t', .done result⟩
  | .error e => ⟨t, .failed e⟩

section Call

variable (now : Timestamptz) (id : UUID) (i : IncidentUpsertInput)

/-- The next statement of the call. -/
def CallState.next (s : CallState) : CallState :=
  match s.stage with
  | .start => afterInsert s.table (insertProblemIncident now id i s.table)
  | .conflicted => ⟨s.table, .selecting ((s.table.filter (Incident.isOpenFor i.key)).map Incident.id)⟩
  | .selecting ids =>
    afterSelect s.table (one (s.table.filter fun r => r.isOpenFor i.key && decide (r.id ∈ ids)))
  | .locked existing => afterUpdate s.table (mergeProblem now i existing s.table)
  | .done _ => s
  | .failed _ => s

/-- The row the call has locked. -/
def Stage.lock : Stage → Option Incident
  | .locked existing => some existing
  | _ => none

/-- The call has not ended. -/
def Stage.running : Stage → Bool
  | .done _ => false
  | .failed _ => false
  | _ => true

/-- One move of an interleaving: a statement of the call, or the commit of another transaction. -/
inductive Move : CallState → CallState → Prop
  | own (s : CallState) : Move s (s.next now id i)
  | commit (t t' : List Incident) (stage : Stage) (hrunning : stage.running = true)
      (hconsistent : Consistent t') (hlock : ∀ r ∈ stage.lock, r ∈ t') : Move ⟨t, stage⟩ ⟨t', stage⟩

/-- The call is between its conflict and the lock. -/
def Stage.awaiting : Stage → Bool
  | .conflicted => true
  | .selecting _ => true
  | _ => false

/-- The open row of the key is open in the second table, too. -/
def StaysOpen (k : String × String) (t t' : List Incident) : Prop :=
  ∀ r ∈ t, r.isOpenFor k = true → ∃ r' ∈ t', r'.id = r.id ∧ r'.isOpenFor k = true

/-- A move that does not take the open row of the key out of OPEN while the call waits for it. -/
structure KeptMove (s s' : CallState) : Prop where
  move : Move now id i s s'
  kept : s.stage.awaiting = true → StaysOpen i.key s.table s'.table

/-- The values of the call are refused: by a validation, because a time is out of range, or by the
database; the row of the key has nothing to do with it. -/
def ValuesRefused : OpError → Prop
  | .validation _ _ => True
  | .overflow => True
  | .integrity => True
  | .database _ => True
  | _ => False

/-- The call has not ended, or as the caller expects: with the open row of the key, inserted or
updated, or because the values were refused. -/
def Settled (s : CallState) : Prop :=
  match s.stage with
  | .done result => result.incident ∈ s.table ∧ result.incident.isOpenFor i.key = true
  | .failed e => ValuesRefused e
  | _ => True

end Call

/-! ### What the statements can fail with -/

theorem windowStateParam_raises (w : WindowStateJson) :
    Raises ValuesRefused (windowStateParam w) := by
  unfold windowStateParam
  split_ifs
  · exact Raises.ok
  · exact Raises.error trivial

theorem initialWindowState_raises (i : IncidentUpsertInput) :
    Raises ValuesRefused (initialWindowState i) := by
  unfold initialWindowState
  refine Raises.bind (Raises.orThrow trivial) fun start _ => ?_
  exact Raises.bind (activeObjectsFromInput_raises (fun _ _ => trivial) i) fun objs _ =>
    IncidentWindowState.validate_raises (fun _ _ => trivial) _

theorem nextWindowState_raises (existing : Incident) (i : IncidentUpsertInput) :
    Raises ValuesRefused (nextWindowState existing i) := by
  unfold nextWindowState
  refine Raises.bind (Raises.orThrow trivial) fun start _ => ?_
  refine Raises.bind (activeObjectsFromInput_raises (fun _ _ => trivial) i) fun objs _ => ?_
  exact Raises.bind (IncidentWindowState.validate_raises (fun _ _ => trivial) _) fun state _ => Raises.ok

theorem preserve_raises (existing incoming : ContextData) :
    Raises ValuesRefused (preserveNotificationDeliveryResults existing incoming) := by
  unfold preserveNotificationDeliveryResults
  cases existing.notificationDeliveryResults with
  | none => exact Raises.ok
  | some records =>
    unfold normalizeContext
    exact Raises.bind (Raises.liftError fun _ => trivial) fun c _ => Raises.ok

theorem insertProblemIncident_raises (now : Timestamptz) (id : UUID) (i : IncidentUpsertInput)
    (t : List Incident) : Raises ValuesRefused (insertProblemIncident now id i t) := by
  unfold insertProblemIncident
  refine Raises.bind (initialWindowState_raises i) fun initial _ => ?_
  refine Raises.bind (Raises.orThrow trivial) fun eventTime _ => ?_
  refine Raises.bind (windowStateParam_raises initial.dump) fun state _ => ?_
  split_ifs
  · exact Raises.ok
  · exact Raises.error trivial
  · exact Raises.ok

/-- The update finds the row it has locked. -/
theorem mergeProblem_raises {t : List Incident} (ht : (t.map Incident.id).Nodup) {r : Incident}
    (hr : r ∈ t) (now : Timestamptz) (i : IncidentUpsertInput) :
    Raises ValuesRefused (mergeProblem now i r t) := by
  unfold mergeProblem
  refine Raises.bind (nextWindowState_raises r i) fun w _ => ?_
  refine Raises.bind (preserve_raises _ _) fun context _ => ?_
  refine Raises.bind (Raises.orThrow trivial) fun eventTime _ => ?_
  refine Raises.bind (windowStateParam_raises w.state.dump) fun _ _ => ?_
  rw [updateOne_id ht hr (mergedIncident now i eventTime w context) rfl]
  by_cases hcount : int4End ≤ r.eventCount + if w.counted then 1 else 0
  · rw [if_pos hcount]
    exact Raises.error trivial
  · rw [if_neg hcount]
    exact Raises.ok

/-! ### The invariant of an interleaving -/

section Interleaving

variable {now : Timestamptz} {id : UUID} {i : IncidentUpsertInput}

/-- What holds in every state of an interleaving that keeps the open row open. -/
structure CallInvariant (i : IncidentUpsertInput) (s : CallState) : Prop where
  consistent : s.stage.running = true → Consistent s.table
  waiting : s.stage = .conflicted → ∃ r ∈ s.table, r.isOpenFor i.key = true
  selected : ∀ ids, s.stage = .selecting ids →
    ∃ r ∈ s.table, r.isOpenFor i.key = true ∧ r.id ∈ ids
  locked : ∀ r, s.stage = .locked r → r ∈ s.table ∧ r.isOpenFor i.key = true
  settled : Settled i s

/-- The locking select finds the one open row of the key, if its snapshot had it. -/
theorem lock_eq {t : List Incident} (ht : Consistent t) {r : Incident} (hr : r ∈ t)
    {k : String × String} (hopen : r.isOpenFor k = true) {ids : List UUID} (hid : r.id ∈ ids) :
    t.filter (fun x => x.isOpenFor k && decide (x.id ∈ ids)) = [r] := by
  have hselect : (r.isOpenFor k && decide (r.id ∈ ids)) = true := by
    rw [hopen, decide_eq_true hid]
    rfl
  rw [← filter_key ht.ids hr (g := fun x => x.isOpenFor k && decide (x.id ∈ ids)) hselect]
  refine List.filter_congr fun x hx => ?_
  by_cases hxr : x.id = r.id
  · rw [decide_eq_true hxr, Bool.true_and]
  · have hclosed : x.isOpenFor k = false := by
      by_contra hx'
      obtain ⟨hxo, hxk⟩ := Incident.isOpenFor_iff.mp (Bool.not_eq_false _ ▸ hx')
      obtain ⟨hro, hrk⟩ := Incident.isOpenFor_iff.mp hopen
      exact hxr (congrArg Incident.id (ht.open_keys x hx r hr hxo hro (hxk.trans hrk.symm)))
    rw [hclosed, Bool.false_and, Bool.and_false]

theorem next_start {t : List Incident} : CallState.next now id i ⟨t, .start⟩ =
    afterInsert t (insertProblemIncident now id i t) := rfl

theorem next_selecting {t : List Incident} {ids : List UUID} :
    CallState.next now id i ⟨t, .selecting ids⟩ =
      afterSelect t (one (t.filter fun r => r.isOpenFor i.key && decide (r.id ∈ ids))) := rfl

theorem next_locked {t : List Incident} {existing : Incident} :
    CallState.next now id i ⟨t, .locked existing⟩ =
      afterUpdate t (mergeProblem now i existing t) := rfl

/-- The select fails for want of a row exactly when its snapshot's row has left OPEN. -/
theorem lock_fails_iff {t : List Incident} (ht : Consistent t) {ids : List UUID} :
    (CallState.next now id i ⟨t, .selecting ids⟩).stage = .failed .noResultFound ↔
      ∀ r ∈ t, r.isOpenFor i.key = true → r.id ∉ ids := by
  constructor
  · intro h r hr hopen hid
    rw [next_selecting, lock_eq ht hr hopen hid] at h
    cases h
  · intro h
    have hnil : t.filter (fun x => x.isOpenFor i.key && decide (x.id ∈ ids)) = [] := by
      refine List.filter_eq_nil_iff.mpr fun x hx hsel => ?_
      obtain ⟨hopen, hid⟩ := Bool.and_eq_true_iff.mp hsel
      exact h x hx hopen (of_decide_eq_true hid)
    rw [next_selecting, hnil]
    rfl

section Stages

variable {t : List Incident} {r : Incident} {ids : List UUID}

theorem CallInvariant.at_start (ht : Consistent t) : CallInvariant i ⟨t, .start⟩ :=
  ⟨fun _ => ht, by rintro ⟨⟩, by rintro _ ⟨⟩, by rintro _ ⟨⟩, trivial⟩

theorem CallInvariant.at_conflict (ht : Consistent t)
    (hopen : ∃ r ∈ t, r.isOpenFor i.key = true) : CallInvariant i ⟨t, .conflicted⟩ :=
  ⟨fun _ => ht, fun _ => hopen, by rintro _ ⟨⟩, by rintro _ ⟨⟩, trivial⟩

theorem CallInvariant.at_select (ht : Consistent t)
    (hopen : ∃ r ∈ t, r.isOpenFor i.key = true ∧ r.id ∈ ids) :
    CallInvariant i ⟨t, .selecting ids⟩ := by
  refine ⟨fun _ => ht, by rintro ⟨⟩, ?_, by rintro _ ⟨⟩, trivial⟩
  rintro ids' ⟨⟩
  exact hopen

theorem CallInvariant.at_lock (ht : Consistent t) (hr : r ∈ t) (hopen : r.isOpenFor i.key = true) :
    CallInvariant i ⟨t, .locked r⟩ := by
  refine ⟨fun _ => ht, by rintro ⟨⟩, by rintro _ ⟨⟩, ?_, trivial⟩
  rintro r' ⟨⟩
  exact ⟨hr, hopen⟩

theorem CallInvariant.at_end {w : IncidentAggregationWriteResult} (hrow : w.incident ∈ t)
    (hopen : w.incident.isOpenFor i.key = true) : CallInvariant i ⟨t, .done w⟩ :=
  ⟨by rintro ⟨⟩, by rintro ⟨⟩, by rintro _ ⟨⟩, by rintro _ ⟨⟩, hrow, hopen⟩

theorem CallInvariant.at_failure {e : OpError} (h : ValuesRefused e) :
    CallInvariant i ⟨t, .failed e⟩ :=
  ⟨by rintro ⟨⟩, by rintro ⟨⟩, by rintro _ ⟨⟩, by rintro _ ⟨⟩, h⟩

/-- The insert: a fresh open row, or the open row in its way. -/
theorem CallInvariant.insert (ht : Consistent t) :
    CallInvariant i (CallState.next now id i ⟨t, .start⟩) := by
  rw [next_start]
  cases hins : insertProblemIncident now id i t with
  | error e => exact .at_failure (insertProblemIncident_raises now id i t e hins)
  | ok p =>
    obtain ⟨t', o⟩ := p
    rcases insertProblemIncident_eq_ok hins with
      ⟨rfl, rfl, hopen⟩ | ⟨state, eventTime, -, -, -, -, -, rfl, rfl⟩
    · exact .at_conflict ht hopen
    · refine .at_end ?_ (Incident.isOpenFor_iff.mpr ⟨rfl, rfl⟩)
      exact List.mem_append_right _ (List.mem_singleton_self _)

/-- The snapshot has the open row in the way. -/
theorem CallInvariant.select (h : CallInvariant i ⟨t, .conflicted⟩) :
    CallInvariant i (CallState.next now id i ⟨t, .conflicted⟩) := by
  obtain ⟨r, hr, hopen⟩ := h.waiting rfl
  have hid : r.id ∈ (t.filter (Incident.isOpenFor i.key)).map Incident.id :=
    List.mem_map_of_mem (List.mem_filter.mpr ⟨hr, hopen⟩)
  exact .at_select (h.consistent rfl) ⟨r, hr, hopen, hid⟩

/-- The lock is on that row. -/
theorem CallInvariant.lock (h : CallInvariant i ⟨t, .selecting ids⟩) :
    CallInvariant i (CallState.next now id i ⟨t, .selecting ids⟩) := by
  have ht := h.consistent rfl
  obtain ⟨r, hr, hopen, hid⟩ := h.selected ids rfl
  rw [next_selecting, lock_eq ht hr hopen hid]
  exact .at_lock ht hr hopen

/-- The update is of the locked row, which stays open. -/
theorem CallInvariant.update (h : CallInvariant i ⟨t, .locked r⟩) :
    CallInvariant i (CallState.next now id i ⟨t, .locked r⟩) := by
  have ht := h.consistent rfl
  obtain ⟨hr, hopen⟩ := h.locked r rfl
  rw [next_locked]
  cases hmerge : mergeProblem now i r t with
  | error e => exact .at_failure (mergeProblem_raises ht.ids hr now i e hmerge)
  | ok p =>
    obtain ⟨t', w⟩ := p
    obtain ⟨w', context, eventTime, -, -, -, -, rfl, rfl⟩ := mergeProblem_eq_ok ht.ids hr hmerge
    refine .at_end (List.mem_map.mpr ⟨r, hr, ?_⟩) hopen
    exact if_pos (decide_eq_true rfl)

end Stages

theorem CallInvariant.own {s : CallState} (h : CallInvariant i s) :
    CallInvariant i (s.next now id i) := by
  obtain ⟨t, stage⟩ := s
  cases stage with
  | start => exact .insert (h.consistent rfl)
  | conflicted => exact h.select
  | selecting ids => exact h.lock
  | locked r => exact h.update
  | done w => exact h
  | failed e => exact h

/-- A commit in between leaves the call where it was, with the open row still open. -/
theorem CallInvariant.commit {t t' : List Incident} {stage : Stage} (h : CallInvariant i ⟨t, stage⟩)
    (hrunning : stage.running = true) (ht' : Consistent t') (hlock : ∀ r ∈ stage.lock, r ∈ t')
    (hkept : stage.awaiting = true → StaysOpen i.key t t') : CallInvariant i ⟨t', stage⟩ := by
  cases stage with
  | start => exact .at_start ht'
  | conflicted =>
    obtain ⟨r, hr, hopen⟩ := h.waiting rfl
    obtain ⟨r', hr', -, hopen'⟩ := hkept rfl r hr hopen
    exact .at_conflict ht' ⟨r', hr', hopen'⟩
  | selecting ids =>
    obtain ⟨r, hr, hopen, hid⟩ := h.selected ids rfl
    obtain ⟨r', hr', hid', hopen'⟩ := hkept rfl r hr hopen
    exact .at_select ht' ⟨r', hr', hopen', hid' ▸ hid⟩
  | locked r => exact .at_lock ht' (hlock r rfl) (h.locked r rfl).2
  | done w => cases hrunning
  | failed e => cases hrunning

theorem CallInvariant.kept {s s' : CallState} (h : CallInvariant i s)
    (hmove : KeptMove now id i s s') : CallInvariant i s' := by
  obtain ⟨hmove, hkept⟩ := hmove
  cases hmove with
  | own => exact h.own
  | commit t t' stage hrunning ht' hlock => exact h.commit hrunning ht' hlock hkept

end Interleaving

/-- **No problem is lost while the open row stays open.**  In every interleaving in which no other
transaction takes the open row of the key out of OPEN between the call's conflict and its lock, the
call ends with the open row it has inserted or updated, or because its values were refused: never for
want of a row. -/
theorem problem_not_lost (ops : List Op) (now : Timestamptz) (id : UUID) (i : IncidentUpsertInput)
    (s : CallState) (h : Relation.ReflTransGen (KeptMove now id i) ⟨tableAfter ops, .start⟩ s) :
    Settled i s := by
  have hinv : CallInvariant i s := by
    induction h with
    | refl => exact .at_start (consistent_tableAfter ops)
    | tail _ hmove ih => exact ih.kept hmove
  exact hinv.settled

/-! ### Two interleavings -/

/-- One open incident. -/
def openRun : List Op := sampleProblem "cpu" 0 2 60

theorem sampleArgs_passes : (sampleArgs "mem" 5 2 60).Passes :=
  UpsertArgs.failure_eq_none.mp (by decide)

/-- A second problem of its key. -/
def secondProblem : IncidentUpsertInput := (sampleArgs "mem" 5 2 60).accept sampleArgs_passes

theorem StaysOpen.refl (k : String × String) (t : List Incident) : StaysOpen k t t :=
  fun r hr hopen => ⟨r, hr, rfl, hopen⟩

/-- The call's own statements take no row out of OPEN. -/
theorem KeptMove.own (now : Timestamptz) (id : UUID) (i : IncidentUpsertInput) (s : CallState) :
    KeptMove now id i s (s.next now id i) := by
  refine ⟨Move.own s, fun hawaiting => ?_⟩
  obtain ⟨t, stage⟩ := s
  cases stage with
  | conflicted => exact .refl _ t
  | selecting ids =>
    rw [next_selecting]
    cases one (t.filter fun r => r.isOpenFor i.key && decide (r.id ∈ ids)) with
    | ok existing => exact .refl _ t
    | error e => exact .refl _ t
  | _ => cases hawaiting

/-- The second problem meets the open incident. -/
theorem secondProblem_conflicts :
    CallState.next (sampleTime 5) 1 secondProblem ⟨tableAfter openRun, .start⟩ =
      ⟨tableAfter openRun, .conflicted⟩ := by
  have hnone : (insertProblemIncident (sampleTime 5) 1 secondProblem
      (tableAfter openRun)).toOption.any (fun p => p.2.isNone) = true := by decide +kernel
  rw [next_start]
  cases hins : insertProblemIncident (sampleTime 5) 1 secondProblem (tableAfter openRun) with
  | error e =>
    rw [hins] at hnone
    cases hnone
  | ok p =>
    obtain ⟨t', o⟩ := p
    rw [hins] at hnone
    rcases insertProblemIncident_eq_ok hins with
      ⟨rfl, rfl, -⟩ | ⟨state, eventTime, -, -, -, -, -, rfl, rfl⟩
    · rfl
    · cases hnone

/-- The open incident after a third problem. -/
def busyRun : List Op := openRun ++ sampleProblem "net" 3 2 60

instance (k : String × String) (t t' : List Incident) : Decidable (StaysOpen k t t') :=
  inferInstanceAs (Decidable (∀ r ∈ t, _ → ∃ r' ∈ t', _))

/-- A third problem is recorded between the conflict and the locking select; the second one is merged
then. -/
theorem problem_not_lost_openRun : ∃ s : CallState, s.stage.running = false ∧
    s.table.map Incident.eventCount = [3] ∧ Settled secondProblem s := by
  have hrun : ∀ n, Relation.ReflTransGen (KeptMove (sampleTime 5) 1 secondProblem)
      ⟨tableAfter openRun, .start⟩
      ((CallState.next (sampleTime 5) 1 secondProblem)^[n] ⟨tableAfter busyRun, .conflicted⟩) := by
    intro n
    induction n with
    | zero =>
      refine Relation.ReflTransGen.head (KeptMove.own _ _ _ _) ?_
      rw [secondProblem_conflicts]
      refine Relation.ReflTransGen.single ⟨?_, fun _ => by decide +kernel⟩
      exact Move.commit _ _ _ rfl (consistent_tableAfter busyRun) (by rintro _ ⟨⟩)
    | succ n ih =>
      rw [Function.iterate_succ_apply']
      exact ih.tail (KeptMove.own _ _ _ _)
  exact ⟨_, by decide +kernel, by decide +kernel, problem_not_lost openRun _ _ _ _ (hrun 3)⟩

/-- The open incident after a close. -/
def closedRun : List Op := openRun ++ [.close (sampleTime 6) 0 "ops" "duplicate"]

/-- A close that commits between the conflict and the locking select loses the problem. -/
theorem problem_lost_to_close : ∃ s : CallState,
    Relation.ReflTransGen (Move (sampleTime 5) 1 secondProblem) ⟨tableAfter openRun, .start⟩ s ∧
      s.table = tableAfter closedRun ∧ s.stage = .failed .noResultFound := by
  have hconsistent : Consistent (tableAfter closedRun) := consistent_tableAfter _
  have hopen : ((tableAfter closedRun).any (Incident.isOpenFor secondProblem.key)) = false := by
    decide +kernel
  have hnone : (tableAfter closedRun).filter (fun r => r.isOpenFor secondProblem.key &&
      decide (r.id ∈ ((tableAfter closedRun).filter (Incident.isOpenFor secondProblem.key)).map
        Incident.id)) = [] := by
    rw [List.any_eq_false] at hopen
    refine List.filter_eq_nil_iff.mpr fun r hr hsel => ?_
    exact hopen r hr (Bool.and_eq_true_iff.mp hsel).1
  have hfail : CallState.next (sampleTime 5) 1 secondProblem
      (CallState.next (sampleTime 5) 1 secondProblem ⟨tableAfter closedRun, .conflicted⟩) =
        ⟨tableAfter closedRun, .failed .noResultFound⟩ := by
    show CallState.next (sampleTime 5) 1 secondProblem ⟨tableAfter closedRun, .selecting _⟩ = _
    rw [next_selecting, hnone]
    rfl
  refine ⟨⟨tableAfter closedRun, .failed .noResultFound⟩, ?_, rfl, rfl⟩
  refine Relation.ReflTransGen.head (Move.own _) ?_
  rw [secondProblem_conflicts]
  refine Relation.ReflTransGen.head
    (Move.commit _ (tableAfter closedRun) .conflicted rfl hconsistent (by rintro _ ⟨⟩)) ?_
  refine Relation.ReflTransGen.head (Move.own _) ?_
  rw [← hfail]
  exact Relation.ReflTransGen.single (Move.own _)

end Correlia
