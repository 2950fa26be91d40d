import Correlia.Persistence.Lifecycle

/-!
# Persistence.LifecycleRows — what the lifecycle calls do row by row

A recovery, a sweep, an acknowledgement or a close rewrites each row it selects once, from the row
as it was before the call, and no other row.  The SQL containment filter selects the incidents the
Python filter acts on (`activeObjectsContain_host`, `activeObjectsContain_service`).
-/

namespace Correlia

open Lib

/-! ### The two filters of a recovery -/

/-- A host recovery covers every object on the host. -/
def coversHost (host : String) (o : IncidentObject) : Bool := decide (o.val.host = host)

/-- A service recovery covers exactly the object of that host and service. -/
def coversService (host service : String) (o : IncidentObject) : Bool :=
  decide (o.val = ⟨host, some service⟩)

/-- Some member is covered. -/
def touches (covered : IncidentObject → Bool) (r : Incident) : Bool :=
  r.windowState.val.activeObjects.any covered

theorem activeObjectsContain_single {b : JsonObject} {r : Incident} :
    activeObjectsContain [b] r =
      r.windowState.val.activeObjects.any fun o => objectContains o.dump b := by
  simp [activeObjectsContain, arrayContains, List.any_map, Function.comp_def]

theorem mem_dump_host {o : IncidentObject} {v : Option String} :
    ("host", v) ∈ o.dump ↔ v = some o.val.host := by
  have hne : "host" ≠ "service" := by decide
  simp [IncidentObject.dump, hne]

theorem mem_dump_service {o : IncidentObject} {v : Option String} :
    ("service", v) ∈ o.dump ↔ v = o.val.service := by
  have hne : "service" ≠ "host" := by decide
  simp [IncidentObject.dump, hne]

theorem activeObjectsContain_host (host : String) (r : Incident) :
    activeObjectsContain [[("host", some host)]] r = touches (coversHost host) r := by
  rw [activeObjectsContain_single, touches]
  refine congrArg (List.any _) (funext fun o => ?_)
  rw [objectContains, List.all_cons, List.all_nil, Bool.and_true, coversHost, decide_eq_decide,
    mem_dump_host, Option.some.injEq]
  exact eq_comm

theorem activeObjectsContain_service (host service : String) (r : Incident) :
    activeObjectsContain [[("host", some host), ("service", some service)]] r =
      touches (coversService host service) r := by
  rw [activeObjectsContain_single, touches]
  refine congrArg (List.any _) (funext fun o => ?_)
  rw [objectContains, List.all_cons, List.all_cons, List.all_nil, Bool.and_true, coversService,
    Bool.eq_iff_iff, Bool.and_eq_true, decide_eq_true_eq, decide_eq_true_eq, decide_eq_true_eq,
    mem_dump_host, mem_dump_service, Option.some.injEq]
  obtain ⟨⟨h, s⟩, hv⟩ := o
  constructor
  · rintro ⟨rfl, rfl⟩
    rfl
  · intro e
    cases e
    exact ⟨rfl, rfl⟩

/-- The members a recovery leaves. -/
def remainingObjects (covered : IncidentObject → Bool) (r : Incident) : List IncidentObject :=
  r.windowState.val.activeObjects.filter fun o => !covered o

theorem touches_iff {covered : IncidentObject → Bool} {r : Incident} :
    touches covered r = true ↔ ∃ o ∈ r.windowState.val.activeObjects, covered o = true :=
  List.any_eq_true

/-- A covered member makes the remaining list shorter. -/
theorem remainingObjects_length_ne {covered : IncidentObject → Bool} {r : Incident}
    (h : touches covered r = true) :
    (remainingObjects covered r).length ≠ r.windowState.val.activeObjects.length := by
  obtain ⟨o, ho, hc⟩ := touches_iff.mp h
  refine (List.length_filter_lt_length_iff_exists.mpr ⟨o, ho, ?_⟩).ne
  simp [hc]

/-! ### One row of a recovery -/

/-- The times of a dumped state are written again as the same instants. -/
theorem windowStateWithActiveObjects_instants (r : Incident) (objs : List IncidentObject) :
    (windowStateWithActiveObjects r objs).val.map Timestamp.instant =
      { r.window with activeObjects := sortBy IncidentObject.sortKey objs } := by
  have hinstant : ∀ t : Timestamp, t.toDatetime.dump.instant = t.instant :=
    Timestamp.rewritten_instant
  unfold windowStateWithActiveObjects Incident.window windowStateFromJson
    IncidentWindowState.withActiveObjects IncidentWindowState.dump WindowFields.map
  dsimp only
  simp only [Dict.map_map, hinstant]

/-- The row a recovery writes: resolved when nothing remains, shrunk otherwise. -/
def recoveredIncident (now : Timestamptz) (covered : IncidentObject → Bool) (context : ContextData)
    (r : Incident) : Incident :=
  if remainingObjects covered r = [] then resolvedIncident now .resolved context r
  else shrunkIncident now (remainingObjects covered r) context r

/-- The call's answer for that row. -/
def recoveredResult (covered : IncidentObject → Bool) (r r' : Incident) : LifecycleWriteResult :=
  let counts := activeObjectCounts r.windowState.val.activeObjects
  if remainingObjects covered r = [] then
    ⟨r', .resolved, some .resolved, counts.1, counts.2, true⟩
  else ⟨r', .affectedSetShrunk, none, counts.1, counts.2, true⟩

/-- The notes of a lifecycle call with the counts of the incident. -/
def LifecycleArgs.withCounts (a : LifecycleArgs) (r : Incident) : LifecycleArgs :=
  { a with previousHostCount := (activeObjectCounts r.windowState.val.activeObjects).1
           previousServiceCount := (activeObjectCounts r.windowState.val.activeObjects).2 }

/-- What an iteration computes from the selected row alone. -/
def recoverRow (now : Timestamptz) (covered : IncidentObject → Bool) (a : LifecycleArgs)
    (r : Incident) : Except OpError (Incident × Option LifecycleWriteResult) :=
  (lifecycleContext r (a.withCounts r)).map fun context =>
    let r' := recoveredIncident now covered context r
    (r', some (recoveredResult covered r r'))

@[simp] theorem recoveredIncident_id (now : Timestamptz) (covered : IncidentObject → Bool)
    (context : ContextData) (r : Incident) :
    (recoveredIncident now covered context r).id = r.id := by
  unfold recoveredIncident
  split_ifs <;> rfl

theorem recoveredIncident_context (now : Timestamptz) (covered : IncidentObject → Bool)
    (context : ContextData) (r : Incident) :
    (recoveredIncident now covered context r).decisionContext = context := by
  unfold recoveredIncident
  split_ifs <;> rfl

theorem recoverRow_eq_ok {now : Timestamptz} {covered : IncidentObject → Bool} {a : LifecycleArgs}
    {r : Incident} {p : Incident × Option LifecycleWriteResult} :
    recoverRow now covered a r = .ok p ↔ ∃ context, lifecycleContext r (a.withCounts r) = .ok context ∧
      p = (recoveredIncident now covered context r,
        some (recoveredResult covered r (recoveredIncident now covered context r))) := by
  unfold recoverRow
  cases lifecycleContext r (a.withCounts r) with
  | error e => simp [Except.map]
  | ok context => simp [Except.map, eq_comm]

/-- The tail of an iteration puts back the row computed from the selected one. -/
theorem applyRecovery_eq {t : List Incident} (ht : (t.map Incident.id).Nodup) {c : Incident}
    (hc : c ∈ t) (ho : c.status = .«open») (now : Timestamptz) (covered : IncidentObject → Bool)
    (a : LifecycleArgs) :
    applyRecovery now c (remainingObjects covered c) a t =
      (recoverRow now covered a c).map fun p => (setRow Incident.id p.1 t, p.2) := by
  unfold applyRecovery recoverRow
  show (lifecycleContext c (a.withCounts c) >>= _) = _
  cases lifecycleContext c (a.withCounts c) with
  | error e => rfl
  | ok context =>
    by_cases hr : remainingObjects covered c = []
    · have hres : resolveToResolved now c context t = .ok
          (setRow Incident.id (resolvedIncident now .resolved context c) t,
            resolvedIncident now .resolved context c) :=
        updateOne_open ht hc ho _ rfl
      show (if remainingObjects covered c = [] then _ else _) = _
      rw [if_pos hr, hres]
      simp only [Except.map, recoveredIncident, recoveredResult, if_pos hr]
      rfl
    · have hshr : shrinkAffectedSets now c (remainingObjects covered c) context t = .ok
          (setRow Incident.id (shrunkIncident now (remainingObjects covered c) context c) t,
            shrunkIncident now (remainingObjects covered c) context c) :=
        updateOne_open ht hc ho _ rfl
      show (if remainingObjects covered c = [] then _ else _) = _
      rw [if_neg hr, hshr]
      simp only [Except.map, recoveredIncident, recoveredResult, if_neg hr]
      rfl

theorem hostRecoveryRow_eq {t : List Incident} (ht : (t.map Incident.id).Nodup) {c : Incident}
    (hc : c ∈ t) (ho : c.status = .«open») {a : RecoveryArgs}
    (htouch : touches (coversHost a.host) c = true) (now : Timestamptz) :
    hostRecoveryRow now a c t = (recoverRow now (coversHost a.host) (a.lifecycleArgs none) c).map
      fun p => (setRow Incident.id p.1 t, p.2) := by
  have hrem : (c.windowState.val.activeObjects.filter fun o => decide (o.val.host ≠ a.host)) =
      remainingObjects (coversHost a.host) c :=
    List.filter_congr fun o _ => by simp [coversHost]
  rw [← applyRecovery_eq ht hc ho, hostRecoveryRow]
  simp only [hrem]
  rw [if_neg (remainingObjects_length_ne htouch)]

theorem serviceRecoveryRow_eq {t : List Incident} (ht : (t.map Incident.id).Nodup) {c : Incident}
    (hc : c ∈ t) (ho : c.status = .«open») {a : RecoveryArgs} {service : String}
    (htouch : touches (coversService a.host service) c = true) (now : Timestamptz) :
    serviceRecoveryRow now a service c t =
      (recoverRow now (coversService a.host service) (a.lifecycleArgs (some service)) c).map
        fun p => (setRow Incident.id p.1 t, p.2) := by
  -- the covered member is a valid object, so building the recovered object cannot fail
  obtain ⟨o, hoa, hov⟩ := touches_iff.mp htouch
  have hval : o.val = ⟨a.host, some service⟩ := of_decide_eq_true hov
  have hbuild : IncidentObject.validate a.host (some service) = .ok o :=
    IncidentObject.validate_eq_ok.mpr hval
  have hrem : (c.windowState.val.activeObjects.filter fun x => decide (x ≠ o)) =
      remainingObjects (coversService a.host service) c := by
    refine List.filter_congr fun x _ => ?_
    rw [coversService, ← hval, ← decide_not]
    exact decide_eq_decide.mpr (not_congr Checked.ext_iff)
  rw [← applyRecovery_eq ht hc ho, serviceRecoveryRow, hbuild]
  show (if o ∉ c.windowState.val.activeObjects then _ else _) = _
  rw [if_neg (not_not_intro hoa), hrem]

/-! ### The recoveries -/

/-- The incidents a recovery acts on. -/
def recoveryTargets (covered : IncidentObject → Bool) (t : List Incident) : List Incident :=
  t.filter fun r => r.isOpen && touches covered r

theorem mem_recoveryTargets {covered : IncidentObject → Bool} {t : List Incident} {r : Incident} :
    r ∈ recoveryTargets covered t ↔ r ∈ t ∧ r.status = .«open» ∧ touches covered r = true := by
  simp [recoveryTargets]

/-- Both recoveries: every target row is rewritten from what it was. -/
def recoverAll (now : Timestamptz) (covered : IncidentObject → Bool) (a : LifecycleArgs)
    (t : List Incident) : Except OpError (List Incident × List LifecycleWriteResult) :=
  ((recoveryTargets covered t).mapM (recoverRow now covered a)).map
    fun ps => writeBack Incident.id ps t

theorem forEachRow_recover {t : List Incident} (ht : (t.map Incident.id).Nodup)
    {now : Timestamptz} {covered : IncidentObject → Bool} {a : LifecycleArgs}
    {body : Incident → List Incident → Except OpError (List Incident × Option LifecycleWriteResult)}
    (hbody : ∀ c t', (t'.map Incident.id).Nodup → c ∈ t' → c.status = .«open» →
      touches covered c = true → body c t' =
        (recoverRow now covered a c).map fun p => (setRow Incident.id p.1 t', p.2)) :
    forEachRow body (recoveryTargets covered t) t = recoverAll now covered a t := by
  refine forEachRow_eq Incident.id _ _ ?_ ?_ ?_ ?_ ht
  · intro c hc t' hct ht'
    obtain ⟨-, ho, htouch⟩ := mem_recoveryTargets.mp hc
    exact hbody c t' ht' hct ho htouch
  · intro c _ p hp
    obtain ⟨context, -, rfl⟩ := recoverRow_eq_ok.mp hp
    exact recoveredIncident_id _ _ _ _
  · exact fun c hc => (mem_recoveryTargets.mp hc).1
  · exact ht.sublist (List.filter_sublist.map _)

theorem resolveHostRecovery_eq {t : List Incident} (ht : (t.map Incident.id).Nodup)
    (now : Timestamptz) (a : RecoveryArgs) :
    resolveHostRecovery now a t =
      recoverAll now (coversHost a.host) (a.lifecycleArgs none) t := by
  rw [← forEachRow_recover ht fun c t' ht' hc ho htouch => hostRecoveryRow_eq ht' hc ho htouch now]
  simp only [resolveHostRecovery, recoveryTargets, activeObjectsContain_host]

theorem resolveServiceRecovery_eq {t : List Incident} (ht : (t.map Incident.id).Nodup)
    (now : Timestamptz) (a : RecoveryArgs) (service : String) :
    resolveServiceRecovery now a service t =
      recoverAll now (coversService a.host service) (a.lifecycleArgs (some service)) t := by
  rw [← forEachRow_recover ht fun c t' ht' hc ho htouch =>
    serviceRecoveryRow_eq ht' hc ho htouch now]
  simp only [resolveServiceRecovery, recoveryTargets, activeObjectsContain_service]

/-- What a completed recovery does to a row. -/
def RecoveryRow (now : Timestamptz) (covered : IncidentObject → Bool) (a : LifecycleArgs)
    (r r' : Incident) : Prop :=
  ((r.status = .«open» ∧ touches covered r = true) ∧
      ∃ context, lifecycleContext r (a.withCounts r) = .ok context ∧
        r' = recoveredIncident now covered context r) ∨
    (¬(r.status = .«open» ∧ touches covered r = true) ∧ r' = r)

theorem recoverAll_rows {t t' : List Incident} (ht : (t.map Incident.id).Nodup)
    {now : Timestamptz} {covered : IncidentObject → Bool} {a : LifecycleArgs}
    {res : List LifecycleWriteResult} (h : recoverAll now covered a t = .ok (t', res)) :
    List.Forall₂ (RecoveryRow now covered a) t t' := by
  unfold recoverAll at h
  cases hm : (recoveryTargets covered t).mapM (recoverRow now covered a) with
  | error e =>
    rw [hm] at h
    cases h
  | ok ps =>
    rw [hm] at h
    cases h
    have hps := mapM_eq_ok.mp hm
    have hrows : List.Forall₂ (fun c (p : Incident × Option LifecycleWriteResult) =>
        p.1.id = c.id ∧ ∃ context, lifecycleContext c (a.withCounts c) = .ok context ∧
          p.1 = recoveredIncident now covered context c) (recoveryTargets covered t) ps := by
      refine hps.imp fun c p hp => ?_
      obtain ⟨context, hctx, rfl⟩ := recoverRow_eq_ok.mp hp
      exact ⟨recoveredIncident_id _ _ _ _, context, hctx, rfl⟩
    have hall := writeBack_forall₂ Incident.id
      (R := fun r r' => ∃ context, lifecycleContext r (a.withCounts r) = .ok context ∧
        r' = recoveredIncident now covered context r) hrows
      (fun c hc => (mem_recoveryTargets.mp hc).1) (ht.sublist (List.filter_sublist.map _)) ht
    refine (forall₂_mem hall).imp fun r r' hr => ?_
    obtain ⟨hrt, hr⟩ := hr
    rcases hr with ⟨hin, hr⟩ | ⟨hnot, rfl⟩
    · exact Or.inl ⟨(mem_recoveryTargets.mp hin).2, hr⟩
    · exact Or.inr ⟨fun h => hnot (mem_recoveryTargets.mpr ⟨hrt, h⟩), rfl⟩

/-! ### Expiration -/

/-- The row a sweep writes, with the call's answer. -/
def expiredRow (now : Timestamptz) (r : Incident) : Except OpError (Incident × Option Incident) :=
  (lifecycleContext r (expirationArgs now r)).map fun context =>
    let r' := closedIncident now .closed context r
    (r', some r')

theorem expiredRow_eq_ok {now : Timestamptz} {r : Incident} {p : Incident × Option Incident} :
    expiredRow now r = .ok p ↔ ∃ context, lifecycleContext r (expirationArgs now r) = .ok context ∧
      p = (closedIncident now .closed context r, some (closedIncident now .closed context r)) := by
  unfold expiredRow
  cases lifecycleContext r (expirationArgs now r) with
  | error e => simp [Except.map]
  | ok context => simp [Except.map, eq_comm]

theorem expireRow_eq {t : List Incident} (ht : (t.map Incident.id).Nodup) {c : Incident}
    (hc : c ∈ t) (ho : c.status = .«open») (now : Timestamptz) :
    expireRow now c t = (expiredRow now c).map fun p => (setRow Incident.id p.1 t, p.2) := by
  unfold expireRow expiredRow
  cases lifecycleContext c (expirationArgs now c) with
  | error e => rfl
  | ok context =>
    have hret : returning (openWithId c.id) (closedIncident now .closed context) t =
        [closedIncident now .closed context c] :=
      returning_key ht hc (g := Incident.isOpen) (Incident.isOpen_iff.mpr ho) _
    have hone := updateOne_open ht hc ho (closedIncident now .closed context) rfl
    rw [updateOne, hret] at hone
    have hup : updateWhere (openWithId c.id) (closedIncident now .closed context) t =
        setRow Incident.id (closedIncident now .closed context c) t :=
      congrArg Prod.fst (Except.ok.inj hone)
    show (oneOrNone (returning (openWithId c.id) (closedIncident now .closed context) t) >>= _) = _
    rw [hret]
    show Except.ok (updateWhere _ _ t, some _) = Except.ok (setRow _ _ t, some _)
    rw [hup]

theorem mem_expirationCandidates {now : Timestamptz} {locked : List UUID} {limit : ℕ}
    {t cs : List Incident} (h : expirationCandidates now locked limit t = .ok cs) {c : Incident} (hc : c ∈ cs) :
    c ∈ t ∧ c.status = .«open» ∧ staleExpirationCutoff c < now.val := by
  unfold expirationCandidates at h
  simp only at h
  split_ifs at h
  cases h
  have hmem := mem_sortBy.mp (List.mem_filter.mp (List.mem_of_mem_take hc)).1
  obtain ⟨hopen, hstale⟩ := List.mem_filter.mp hmem
  obtain ⟨hct, ho⟩ := List.mem_filter.mp hopen
  exact ⟨hct, Incident.isOpen_iff.mp ho, of_decide_eq_true hstale⟩

theorem expirationCandidates_nodup {now : Timestamptz} {locked : List UUID} {limit : ℕ}
    {t cs : List Incident} (ht : (t.map Incident.id).Nodup)
    (h : expirationCandidates now locked limit t = .ok cs) :
    (cs.map Incident.id).Nodup := by
  unfold expirationCandidates at h
  simp only at h
  split_ifs at h
  cases h
  refine List.Nodup.sublist (((List.take_sublist _ _).trans List.filter_sublist).map _) ?_
  refine ((List.perm_insertionSort _ _).map Incident.id).nodup_iff.mpr ?_
  exact ht.sublist ((List.filter_sublist.trans List.filter_sublist).map _)

/-- A sweep is its selection and the rows computed from it. -/
theorem expireStaleIncidents_eq {t cs : List Incident} (ht : (t.map Incident.id).Nodup)
    {now : Timestamptz} {locked : List UUID} {limit : ℤ} (hl : 1 ≤ limit)
    (hcs : expirationCandidates now locked limit.toNat t = .ok cs) :
    expireStaleIncidents now locked limit t =
      (cs.mapM (expiredRow now)).map fun ps => writeBack Incident.id ps t := by
  have hloop : forEachRow (expireRow now) cs t =
      (cs.mapM (expiredRow now)).map fun ps => writeBack Incident.id ps t := by
    refine forEachRow_eq Incident.id _ _ ?_ ?_ ?_ (expirationCandidates_nodup ht hcs) ht
    · intro c hc t' hct ht'
      exact expireRow_eq ht' hct (mem_expirationCandidates hcs hc).2.1 now
    · intro c _ p hp
      obtain ⟨context, -, rfl⟩ := expiredRow_eq_ok.mp hp
      rfl
    · exact fun c hc => (mem_expirationCandidates hcs hc).1
  rw [← hloop, expireStaleIncidents, if_neg (by omega), hcs]
  rfl

/-- What a completed sweep does to a row. -/
def ExpiryRow (now : Timestamptz) (r r' : Incident) : Prop :=
  ((r.status = .«open» ∧ staleExpirationCutoff r < now.val) ∧
      ∃ context, lifecycleContext r (expirationArgs now r) = .ok context ∧
        r' = closedIncident now .closed context r) ∨
    r' = r

theorem expireStaleIncidents_rows {t t' : List Incident} (ht : (t.map Incident.id).Nodup)
    {now : Timestamptz} {locked : List UUID} {limit : ℤ} {res : List Incident}
    (h : expireStaleIncidents now locked limit t = .ok (t', res)) :
    List.Forall₂ (ExpiryRow now) t t' := by
  by_cases hl : limit < 1
  · rw [expireStaleIncidents, if_pos hl] at h
    cases h
    exact List.forall₂_same.mpr fun r _ => Or.inr rfl
  · cases hcs : expirationCandidates now locked limit.toNat t with
    | error e =>
      rw [expireStaleIncidents, if_neg hl, hcs] at h
      cases h
    | ok cs =>
      rw [expireStaleIncidents_eq ht (by omega) hcs] at h
      cases hm : cs.mapM (expiredRow now) with
      | error e =>
        rw [hm] at h
        cases h
      | ok ps =>
        rw [hm] at h
        cases h
        have hrows : List.Forall₂ (fun c (p : Incident × Option Incident) =>
            p.1.id = c.id ∧ ∃ context, lifecycleContext c (expirationArgs now c) = .ok context ∧
              p.1 = closedIncident now .closed context c) cs ps := by
          refine (mapM_eq_ok.mp hm).imp fun c p hp => ?_
          obtain ⟨context, hctx, rfl⟩ := expiredRow_eq_ok.mp hp
          exact ⟨rfl, context, hctx, rfl⟩
        have hall := writeBack_forall₂ Incident.id
          (R := fun r r' => ∃ context, lifecycleContext r (expirationArgs now r) = .ok context ∧
            r' = closedIncident now .closed context r) hrows
          (fun c hc => (mem_expirationCandidates hcs hc).1) (expirationCandidates_nodup ht hcs) ht
        refine hall.imp fun r r' hr => ?_
        rcases hr with ⟨hin, hr⟩ | ⟨-, rfl⟩
        · exact Or.inl ⟨(mem_expirationCandidates hcs hin).2, hr⟩
        · exact Or.inr rfl

/-! ### Acknowledgement and closing -/

/-- The notes of an acknowledgement. -/
def acknowledgementArgs (operator : String) (r : Incident) : LifecycleArgs :=
  LifecycleArgs.withCounts { reason := "acknowledged", operator := some operator } r

/-- The notes of a manual close. -/
def closeArgs (operator reason : String) (r : Incident) : LifecycleArgs :=
  LifecycleArgs.withCounts
    { reason := "manual_close", operator := some operator, detail := some reason } r

/-- The open row of an id, when there is one. -/
theorem filter_openWithId {t : List Incident} (ht : (t.map Incident.id).Nodup) {c : Incident}
    (hc : c ∈ t) (ho : c.status = .«open») : t.filter (openWithId c.id) = [c] :=
  filter_key ht hc (g := Incident.isOpen) (Incident.isOpen_iff.mpr ho)

/-- An acknowledgement of an open incident. -/
theorem ackOpenIncident_open {t : List Incident} (ht : (t.map Incident.id).Nodup) {c : Incident}
    (hc : c ∈ t) (ho : c.status = .«open») (now : Timestamptz) (operator : String) :
    ackOpenIncident now c.id operator t =
      lifecycleContext c (acknowledgementArgs operator c) >>= fun context =>
        let c' := acknowledgedIncident now operator context c
        (textParams [operator]).map fun _ => (setRow Incident.id c' t, some
          ⟨c', .acknowledged, none, (activeObjectCounts c.windowState.val.activeObjects).1,
            (activeObjectCounts c.windowState.val.activeObjects).2, false⟩) := by
  unfold ackOpenIncident
  rw [filter_openWithId ht hc ho]
  show (lifecycleContext c (acknowledgementArgs operator c) >>= _) = _
  refine congrArg _ (funext fun context => ?_)
  cases textParams [operator] with
  | error e => rfl
  | ok u =>
    show (updateOne (openWithId c.id) (acknowledgedIncident now operator context) t >>= _) = _
    rw [updateOne_open ht hc ho _ rfl]
    rfl

/-- A close of an open incident. -/
theorem closeOpenIncident_open {t : List Incident} (ht : (t.map Incident.id).Nodup) {c : Incident}
    (hc : c ∈ t) (ho : c.status = .«open») (now : Timestamptz) (operator reason : String) :
    closeOpenIncident now c.id operator reason t =
      lifecycleContext c (closeArgs operator reason c) >>= fun context =>
        let c' := closedIncident now .closed context c
        (textParams [takeText noteTextMax operator, takeText noteTextMax reason]).map fun _ =>
          (setRow Incident.id c' t, some
            ⟨c', .closed, some .closed, (activeObjectCounts c.windowState.val.activeObjects).1,
              (activeObjectCounts c.windowState.val.activeObjects).2, false⟩) := by
  unfold closeOpenIncident
  rw [filter_openWithId ht hc ho]
  show (lifecycleContext c (closeArgs operator reason c) >>= _) = _
  refine congrArg _ (funext fun context => ?_)
  show (textParams [takeText noteTextMax operator, takeText noteTextMax reason] >>= _) = _
  cases textParams [takeText noteTextMax operator, takeText noteTextMax reason] with
  | error e => rfl
  | ok u =>
    show (updateOne (openWithId c.id) (closedIncident now .closed context) t >>= _) = _
    rw [updateOne_open ht hc ho _ rfl]
    rfl

/-- No open row has the id. -/
theorem filter_openWithId_nil {t : List Incident} {id : UUID}
    (h : ∀ r ∈ t, r.id = id → r.status ≠ .«open») : t.filter (openWithId id) = [] :=
  List.filter_eq_nil_iff.mpr fun r hr hw => h r hr (openWithId_iff.mp hw).1 (openWithId_iff.mp hw).2

/-- An acknowledgement of anything else is a no-op. -/
theorem ackOpenIncident_noop {t : List Incident} {id : UUID}
    (h : ∀ r ∈ t, r.id = id → r.status ≠ .«open») (now : Timestamptz) (operator : String) :
    ackOpenIncident now id operator t = (noopResult id t).map fun o => (t, o) := by
  unfold ackOpenIncident
  rw [filter_openWithId_nil h]
  cases noopResult id t <;> rfl

/-- A close of anything else is a no-op. -/
theorem closeOpenIncident_noop {t : List Incident} {id : UUID}
    (h : ∀ r ∈ t, r.id = id → r.status ≠ .«open») (now : Timestamptz) (operator reason : String) :
    closeOpenIncident now id operator reason t = (noopResult id t).map fun o => (t, o) := by
  unfold closeOpenIncident
  rw [filter_openWithId_nil h]
  cases noopResult id t <;> rfl

/-- The open row of an id, or the reason there is none. -/
theorem openRow_or_none (id : UUID) (t : List Incident) :
    (∃ c ∈ t, c.id = id ∧ c.status = .«open») ∨ ∀ r ∈ t, r.id = id → r.status ≠ .«open» := by
  by_cases h : ∃ c ∈ t, c.id = id ∧ c.status = .«open»
  · exact Or.inl h
  · exact Or.inr fun r hr hid ho => h ⟨r, hr, hid, ho⟩

/-- An acknowledgement rewrites the open row of the id, or nothing. -/
theorem ackOpenIncident_rows {t t' : List Incident} {now : Timestamptz} {id : UUID}
    {operator : String} {result : Option LifecycleWriteResult} (ht : (t.map Incident.id).Nodup)
    (h : ackOpenIncident now id operator t = .ok (t', result)) :
    t' = t ∨ ∃ c context, c ∈ t ∧ c.id = id ∧ c.status = .«open» ∧
      lifecycleContext c (acknowledgementArgs operator c) = .ok context ∧
      t' = setRow Incident.id (acknowledgedIncident now operator context c) t := by
  rcases openRow_or_none id t with ⟨c, hc, rfl, hopen⟩ | hnone
  · rw [ackOpenIncident_open ht hc hopen] at h
    obtain ⟨context, hcontext, hparams⟩ := bind_eq_ok.mp h
    obtain ⟨u, -, hresult⟩ := map_eq_ok.mp hparams
    cases hresult
    exact Or.inr ⟨c, context, hc, rfl, hopen, hcontext, rfl⟩
  · rw [ackOpenIncident_noop hnone] at h
    obtain ⟨answer, -, hresult⟩ := map_eq_ok.mp h
    cases hresult
    exact Or.inl rfl

/-- A close rewrites the open row of the id, or nothing. -/
theorem closeOpenIncident_rows {t t' : List Incident} {now : Timestamptz} {id : UUID}
    {operator reason : String} {result : Option LifecycleWriteResult}
    (ht : (t.map Incident.id).Nodup)
    (h : closeOpenIncident now id operator reason t = .ok (t', result)) :
    t' = t ∨ ∃ c context, c ∈ t ∧ c.id = id ∧ c.status = .«open» ∧
      lifecycleContext c (closeArgs operator reason c) = .ok context ∧
      t' = setRow Incident.id (closedIncident now .closed context c) t := by
  rcases openRow_or_none id t with ⟨c, hc, rfl, hopen⟩ | hnone
  · rw [closeOpenIncident_open ht hc hopen] at h
    obtain ⟨context, hcontext, hparams⟩ := bind_eq_ok.mp h
    obtain ⟨u, -, hresult⟩ := map_eq_ok.mp hparams
    cases hresult
    exact Or.inr ⟨c, context, hc, rfl, hopen, hcontext, rfl⟩
  · rw [closeOpenIncident_noop hnone] at h
    obtain ⟨answer, -, hresult⟩ := map_eq_ok.mp h
    cases hresult
    exact Or.inl rfl

/-- The no-op answer names the row, when there is one. -/
theorem noopResult_of_mem {t : List Incident} (ht : (t.map Incident.id).Nodup) {c : Incident}
    (hc : c ∈ t) : noopResult c.id t = .ok (some
      ⟨c, .noop, none, (activeObjectCounts c.windowState.val.activeObjects).1,
        (activeObjectCounts c.windowState.val.activeObjects).2, false⟩) := by
  have hf : t.filter (fun r => decide (r.id = c.id)) = [c] := by
    have := filter_key ht hc (g := fun _ => true) rfl
    simpa only [Bool.and_true] using this
  rw [noopResult, hf]
  rfl

end Correlia
