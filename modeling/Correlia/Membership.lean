import Correlia.ArrivalOrder

/-!
# Membership — which objects an open incident holds

An object is in an OPEN incident's membership when a problem applied to the incident contained it
and no later recovery covered it (`membership_iff`).  A recovery acts on exactly the OPEN incidents
it has a covered member of, and takes exactly the covered members (`RecoveryEffect`).
-/

namespace Correlia

open Lib

/-- The call is a problem that contains the object. -/
def Contains (o : IncidentObject) (op : Op) : Prop :=
  ∃ p, op.problem = some p ∧ o.val.host ∈ p.input.affectedHosts ∧
    o.val.service ∈ p.input.servicesOrNone

/-- The call is a recovery that covers the object. -/
def Covers (o : IncidentObject) (op : Op) : Prop :=
  ∃ now covered, op.recovery = some (now, covered) ∧ covered o = true

/-- A problem applied to the incident contained the object, and no later recovery covered it. -/
def ActiveAfter (id : UUID) (o : IncidentObject) (l : List (Op × Answer)) : Prop :=
  HeldAfter (fun c => onIncident id c = true ∧ Contains o c.1) (fun c => Covers o c.1) l

/-! ### One recovery -/

/-- What a completed recovery does to a row. -/
structure RecoveryEffect (covered : IncidentObject → Bool) (r r' : Incident) : Prop where
  modified : r' ≠ r ↔ r.status = .«open» ∧ touches covered r = true
  objects : r.status = .«open» →
    r'.windowState.val.activeObjects = r.windowState.val.activeObjects.filter fun o => !covered o
  resolved : r.status = .«open» → (r'.status = .resolved ↔ r'.windowState.val.activeObjects = [])
  kept_open : r.status = .«open» → (r'.status = .«open» ↔ r'.windowState.val.activeObjects ≠ [])
  counting : SameCounting r r'
  acknowledgement : r'.acknowledgedAt = r.acknowledgedAt ∧ r'.acknowledgedBy = r.acknowledgedBy

theorem recoveredIncident_objects {now : Timestamptz} {covered : IncidentObject → Bool}
    {context : ContextData} {r : Incident} (hr : RowInvariant r) :
    (recoveredIncident now covered context r).windowState.val.activeObjects =
      remainingObjects covered r :=
  (congrArg WindowFields.activeObjects (recoveredIncident_window hr.objects_sorted) :)

/-- Without a covered member nothing is removed. -/
theorem remainingObjects_of_not_touches {covered : IncidentObject → Bool} {r : Incident}
    (h : ¬touches covered r = true) :
    remainingObjects covered r = r.windowState.val.activeObjects := by
  refine List.filter_eq_self.mpr fun o ho => ?_
  rw [Bool.not_eq_true']
  by_contra hc
  exact h (touches_iff.mpr ⟨o, ho, by simpa using hc⟩)

theorem RecoveryRow.effect {now : Timestamptz} {covered : IncidentObject → Bool}
    {a : LifecycleArgs} {r r' : Incident} (hr : RowInvariant r)
    (h : RecoveryRow now covered a r r') : RecoveryEffect covered r r' := by
  rcases h with ⟨⟨hopen, htouch⟩, context, -, rfl⟩ | ⟨hnot, rfl⟩
  · have hobjs : (recoveredIncident now covered context r).windowState.val.activeObjects =
        remainingObjects covered r := recoveredIncident_objects hr
    have hstatus : (recoveredIncident now covered context r).status =
        if remainingObjects covered r = [] then .resolved else .«open» := by
      unfold recoveredIncident
      split_ifs
      · rfl
      · exact hopen
    constructor
    · refine ⟨fun _ => ⟨hopen, htouch⟩, fun _ heq => ?_⟩
      have hlen := remainingObjects_length_ne htouch
      rw [← hobjs, heq] at hlen
      exact hlen rfl
    · exact fun _ => hobjs
    · intro _
      rw [hobjs, hstatus]
      split_ifs with hrem <;> simp [hrem]
    · intro _
      rw [hobjs, hstatus]
      split_ifs with hrem <;> simp [hrem]
    · exact SameCounting.recovered now covered context r
    · unfold recoveredIncident
      split_ifs
      · exact ⟨rfl, rfl⟩
      · exact ⟨rfl, rfl⟩
  · constructor
    · exact ⟨fun hne => absurd rfl hne, fun hh => absurd hh hnot⟩
    · intro hopen
      exact (remainingObjects_of_not_touches fun ht => hnot ⟨hopen, ht⟩).symm
    · intro hopen
      have hne := hr.objects_open hopen
      simp [hopen, hne]
    · intro hopen
      exact ⟨fun _ => hr.objects_open hopen, fun _ => hopen⟩
    · exact SameCounting.refl r'
    · exact ⟨rfl, rfl⟩

/-- A committed recovery, row by row. -/
theorem step_recovery {op : Op} {now : Timestamptz} {covered : IncidentObject → Bool}
    {t t' : List Incident} {o : Answer} (ht : (t.map Incident.id).Nodup)
    (hop : op.recovery = some (now, covered)) (h : step op t = .ok (t', o)) :
    ∃ a, List.Forall₂ (RecoveryRow now covered a) t t' := by
  cases op with
  | hostRecovery now' a =>
    obtain ⟨res, hres, -⟩ := answer_eq_ok.mp h
    cases hop
    rw [resolveHostRecovery_eq ht] at hres
    exact ⟨_, recoverAll_rows ht hres⟩
  | serviceRecovery now' a service =>
    obtain ⟨res, hres, -⟩ := answer_eq_ok.mp h
    cases hop
    rw [resolveServiceRecovery_eq ht] at hres
    exact ⟨_, recoverAll_rows ht hres⟩
  | _ => cases hop

/-! ### Whole runs -/

theorem activeAfter_concat {id : UUID} {ob : IncidentObject} {l : List (Op × Answer)} {op : Op}
    {o : Answer} : ActiveAfter id ob (l ++ [(op, o)]) ↔
      (onIncident id (op, o) = true ∧ Contains ob op) ∨ (ActiveAfter id ob l ∧ ¬Covers ob op) :=
  heldAfter_concat

/-- Every call is a problem, a recovery, or leaves all window states and reopens nothing. -/
theorem RowChange.other {op : Op} {r r' : Incident} (hproblem : op.problem = none)
    (hrecovery : op.recovery = none) (h : RowChange op r r') :
    r'.windowState = r.windowState ∧ (r'.status = .«open» → r.status = .«open») := by
  cases h with
  | same => exact ⟨rfl, id⟩
  | merged hp => exact absurd (hproblem.symm.trans hp) (by simp)
  | recovered hr => exact absurd (hrecovery.symm.trans hr) (by simp)
  | acknowledged _ hopen => exact ⟨rfl, fun _ => hopen⟩
  | closed _ hopen => exact ⟨rfl, fun _ => hopen⟩
  | notified => exact ⟨rfl, id⟩

theorem problem_not_recovery {op : Op} {p : ProblemCall} (h : op.problem = some p) :
    op.recovery = none := by
  cases op with
  | hostRecovery => cases h
  | serviceRecovery => cases h
  | _ => rfl

/-- The objects of a merged row. -/
theorem Merged.mem_objects {p : ProblemCall} {r r' : Incident} {w : WindowUpdate}
    (h : Merged p r w r') (o : IncidentObject) :
    o ∈ r'.windowState.val.activeObjects ↔ o ∈ r.windowState.val.activeObjects ∨
      (o.val.host ∈ p.input.affectedHosts ∧ o.val.service ∈ p.input.servicesOrNone) := by
  cases h with
  | intro eventTime context hopen hkey hw htime hlen hcontext =>
  obtain ⟨objs, hobjs, hactive⟩ := (nextWindowState_eq_ok hw).objects
  show o ∈ w.state.val.activeObjects ↔ _
  rw [hactive, mem_sortedSet, List.mem_append, mem_activeObjectsFromInput hobjs]

theorem membership_iff (ops : List Op) : ∀ r ∈ tableAfter ops, r.status = .«open» →
    ∀ o, o ∈ r.windowState.val.activeObjects ↔ ActiveAfter r.id o (history ops) := by
  refine history_induction (R := fun l t => ∀ r ∈ t, r.status = .«open» →
    ∀ o, o ∈ r.windowState.val.activeObjects ↔ ActiveAfter r.id o l) (by simp) ?_ ops
  intro before op t' ans ih h x hx hopen o
  have ht := ids_nodup before
  rw [activeAfter_concat]
  cases hop : op.problem with
  | none =>
    obtain ⟨hrows, ho, -⟩ := step_no_problem ht hop h
    have hnot : ¬(onIncident x.id (op, ans) = true ∧ Contains o op) := by
      rintro ⟨hon, -⟩
      rw [onIncident_of_none ho] at hon
      cases hon
    rw [or_iff_right hnot]
    cases hrec : op.recovery with
    | none =>
      obtain ⟨r, hr, hchg⟩ := exists_of_forall₂_right hrows hx
      obtain ⟨hwin, hback⟩ := hchg.other hop hrec
      have hcov : ¬Covers o op := by
        rintro ⟨now, covered, hc, -⟩
        rw [hrec] at hc
        cases hc
      rw [hwin, ih r hr (hback hopen) o, hchg.id_eq, and_iff_left hcov]
    | some rec =>
      obtain ⟨now, covered⟩ := rec
      obtain ⟨a, hrows⟩ := step_recovery ht hrec h
      obtain ⟨r, hr, hrow⟩ := exists_of_forall₂_right hrows hx
      have heff := hrow.effect (invariant_of_mem hr)
      have hropen : r.status = .«open» := by
        by_contra hne
        by_cases heq : x = r
        · exact hne (heq ▸ hopen)
        · exact hne (heff.modified.mp heq).1
      have hcov : Covers o op ↔ covered o = true := by
        constructor
        · rintro ⟨now', covered', hc, hco⟩
          rw [hrec] at hc
          cases hc
          exact hco
        · exact fun hco => ⟨now, covered, hrec, hco⟩
      rw [heff.objects hropen, List.mem_filter, ih r hr hropen o, heff.counting.id, hcov,
        Bool.not_eq_true', Bool.not_eq_true]
  | some p =>
    obtain ⟨out, ho, heff⟩ := step_problem ht hop h
    have hcov : ¬Covers o op := by
      rintro ⟨now, covered, hc, -⟩
      rw [problem_not_recovery hop] at hc
      cases hc
    have hcontains : Contains o op ↔
        o.val.host ∈ p.input.affectedHosts ∧ o.val.service ∈ p.input.servicesOrNone := by
      constructor
      · rintro ⟨p', hp', hin⟩
        cases hop.symm.trans hp'
        exact hin
      · exact fun hin => ⟨p, hop, hin⟩
    rw [and_iff_left hcov, onIncident_iff ho, hcontains]
    rcases heff.row_cases hx with ⟨hx, hne⟩ | ⟨hid, ⟨hfresh, -⟩ | ⟨r, w, hr, hm, -⟩⟩
    · rw [or_iff_right fun hh => hne hh.1.symm]
      exact ih x hx hopen o
    · -- nothing was applied to a fresh row before
      have hnone : ¬ActiveAfter x.id o (history before) := by
        rintro ⟨before', c, after, hsplit, ⟨hon, -⟩, -⟩
        obtain ⟨r, hr, hrid⟩ := (transitionCount x.id before).row c (by simp [hsplit]) hon
        exact hfresh.id_free r hr (hrid.trans hfresh.id_eq)
      rw [or_iff_left hnone, and_iff_right hid.symm]
      exact mem_activeObjectsFromInput hfresh.lifetime.objects
    · have hropen : r.status = .«open» := by
        cases hm
        assumption
      rw [hm.mem_objects, ih r hr hropen o, ← hm.id_eq, and_iff_right hid.symm, or_comm]

/-! ### The filters and the caller -/

/-- The SQL filter and the Python filter of a host recovery select by a covered member. -/
theorem hostFilters_agree (host : String) (r : Incident) :
    activeObjectsContain [[("host", some host)]] r = touches (coversHost host) r ∧
    ((r.windowState.val.activeObjects.filter fun o => decide (o.val.host ≠ host)).length ≠
      r.windowState.val.activeObjects.length ↔ touches (coversHost host) r = true) := by
  refine ⟨activeObjectsContain_host host r, ?_⟩
  have hrem : (r.windowState.val.activeObjects.filter fun o => decide (o.val.host ≠ host)) =
      remainingObjects (coversHost host) r :=
    List.filter_congr fun o _ => by simp [coversHost]
  rw [hrem]
  refine ⟨fun hne => ?_, remainingObjects_length_ne⟩
  by_contra hnot
  exact hne (by rw [remainingObjects_of_not_touches hnot])

/-- So do the two filters of a service recovery. -/
theorem serviceFilters_agree (host service : String) (r : Incident) :
    activeObjectsContain [[("host", some host), ("service", some service)]] r =
      touches (coversService host service) r ∧
    ∀ o, IncidentObject.validate host (some service) = .ok o →
      (o ∈ r.windowState.val.activeObjects ↔ touches (coversService host service) r = true) := by
  refine ⟨activeObjectsContain_service host service r, fun o ho => ?_⟩
  rw [IncidentObject.validate_eq_ok] at ho
  rw [touches_iff]
  constructor
  · exact fun hin => ⟨o, hin, decide_eq_true ho⟩
  · rintro ⟨x, hx, hcov⟩
    have hxo : x = o := Checked.ext ((of_decide_eq_true hcov).trans ho.symm)
    exact hxo ▸ hx

/-- The repository call of `resolve_for_event`. -/
def recoveryOp (now : Timestamptz) (event : NormalizedEvent) : Op :=
  match event.val.service with
  | some service => .serviceRecovery now (recoveryArgs event) service
  | none => .hostRecovery now (recoveryArgs event)

theorem resolveForEvent_table (now : Timestamptz) {event : NormalizedEvent}
    (hev : event.val.eventType = .recovery) (t : List Incident) :
    (resolveForEvent now event t).map Prod.fst = (step (recoveryOp now event) t).map Prod.fst := by
  have hmap : ∀ {x : Except OpError (List Incident × List LifecycleWriteResult)},
      (x >>= fun p => pure (p.1, resultFromWrites p.2) :
        Except OpError (List Incident × LifecycleResult)).map Prod.fst =
      (answer .recovered x).map Prod.fst := by
    intro x
    cases x with
    | error e => rfl
    | ok p => rfl
  unfold resolveForEvent
  rw [if_neg (not_not_intro hev)]
  refine hmap.trans ?_
  unfold recoveryWrites recoveryOp
  cases event.val.service with
  | none => rfl
  | some service => rfl

theorem recoveryOp_covers (now : Timestamptz) (event : NormalizedEvent) :
    ∃ covered, (recoveryOp now event).recovery = some (now, covered) ∧ ∀ o, covered o = true ↔
      o.val.host = event.val.host ∧
        (event.val.service = none ∨ o.val.service = event.val.service) := by
  unfold recoveryOp
  cases event.val.service with
  | none =>
    refine ⟨_, rfl, fun o => ?_⟩
    rw [coversHost, decide_eq_true_iff, eq_self, true_or, and_true]
    rfl
  | some service =>
    refine ⟨_, rfl, fun o => ?_⟩
    obtain ⟨⟨h, s⟩, hv⟩ := o
    simp [coversService, recoveryArgs]

/-- **Membership.**  In every run an OPEN incident holds exactly the objects that a problem applied
to it contained and no later recovery covered.  Every completed recovery has `RecoveryEffect` on
each row; its two filters agree; and `resolve_for_event` recovers the event's service on its host,
or everything on the host when the event names no service. -/
theorem membership (ops : List Op) :
    (∀ r ∈ tableAfter ops, r.status = .«open» →
      ∀ o, o ∈ r.windowState.val.activeObjects ↔ ActiveAfter r.id o (history ops)) ∧
    (∀ op now covered t' ans, op.recovery = some (now, covered) →
      step op (tableAfter ops) = .ok (t', ans) →
      List.Forall₂ (RecoveryEffect covered) (tableAfter ops) t') ∧
    (∀ (r : Incident) host,
      activeObjectsContain [[("host", some host)]] r = touches (coversHost host) r ∧
      ((r.windowState.val.activeObjects.filter fun o => decide (o.val.host ≠ host)).length ≠
        r.windowState.val.activeObjects.length ↔ touches (coversHost host) r = true)) ∧
    (∀ (r : Incident) host service,
      activeObjectsContain [[("host", some host), ("service", some service)]] r =
        touches (coversService host service) r ∧
      ∀ o, IncidentObject.validate host (some service) = .ok o →
        (o ∈ r.windowState.val.activeObjects ↔ touches (coversService host service) r = true)) ∧
    ∀ now (event : NormalizedEvent), event.val.eventType = .recovery →
      (resolveForEvent now event (tableAfter ops)).map Prod.fst =
        (step (recoveryOp now event) (tableAfter ops)).map Prod.fst ∧
      ∃ covered, (recoveryOp now event).recovery = some (now, covered) ∧ ∀ o, covered o = true ↔
        o.val.host = event.val.host ∧
          (event.val.service = none ∨ o.val.service = event.val.service) := by
  refine ⟨membership_iff ops, ?_, fun r host => hostFilters_agree host r,
    fun r host service => serviceFilters_agree host service r, ?_⟩
  · intro op now covered t' ans hop h
    obtain ⟨a, hrows⟩ := step_recovery (ids_nodup ops) hop h
    exact (forall₂_mem hrows).imp fun r r' hr => hr.2.effect (invariant_of_mem hr.1)
  · exact fun now event hev =>
      ⟨resolveForEvent_table now hev (tableAfter ops), recoveryOp_covers now event⟩

/-! ### A run to look at -/

/-- The sample problem on another host. -/
def problemOn (host fingerprint : String) (n : ℕ) : List Op :=
  ({ sampleArgs fingerprint n 2 60 with affectedHosts := [host] }.postInit.toOption.toList).map
    fun i => .recordProblem (sampleTime n) (Fin.ofNat _ n) i

/-- Problems on two hosts, and the recovery of one of them. -/
def recoveredRun : List Op :=
  problemOn "db1" "cpu" 0 ++ problemOn "db2" "mem" 5 ++
    [.hostRecovery (sampleTime 9) ⟨"db1", (sampleTime 9).toDatetime, "up", "icinga"⟩]

def diskOn (host : String) (h : host.length = 3) : IncidentObject :=
  ⟨⟨host, some "disk"⟩, by
    have hdisk : "disk".length = 4 := by decide
    simp [ObjectFields.errors, h, hdisk]⟩

theorem recoveredRun_row : 0 < (tableAfter recoveredRun).length := by decide

/-- The object of the other host is held, the recovered one is not. -/
theorem membership_recoveredRun : ∃ r ∈ tableAfter recoveredRun, r.status = .«open» ∧
    ActiveAfter r.id (diskOn "db2" rfl) (history recoveredRun) ∧
    ¬ActiveAfter r.id (diskOn "db1" rfl) (history recoveredRun) := by
  have hopen : ((tableAfter recoveredRun).get ⟨0, recoveredRun_row⟩).status = .«open» := by decide
  have hmem := List.get_mem (tableAfter recoveredRun) ⟨0, recoveredRun_row⟩
  have hiff := (membership recoveredRun).1 _ hmem hopen
  exact ⟨_, hmem, hopen, (hiff _).mp (by decide), fun h => absurd ((hiff _).mpr h) (by decide)⟩

end Correlia
