import Correlia.Expiration
import Correlia.Lifetimes
import Correlia.Processing.LifecycleWorker

/-!
# BackgroundSweeps — the worker beside everything else that writes

What the worker reports is in the table: a closed row names the sweep in its notes, and the rows that
do are as many as the worker has counted, up to the sweeps that were cut (`worker_tells_the_table`).
A sweep that leaves a stale incident behind, which nobody has locked, closes a full batch of others,
and none is opened again, so few sweeps can (`no_incident_starves`).
-/

namespace Correlia

open Lib

/-! ### A committed sweep -/

/-- What a sweep does to a row it has chosen. -/
def ExpiredFrom (now : Timestamptz) (r r' : Incident) : Prop :=
  ∃ context, lifecycleContext r (expirationArgs now r) = .ok context ∧
    r' = closedIncident now .closed context r

/-- Closed, with the reason of a sweep. -/
def isExpired (r : Incident) : Bool :=
  decide (r.status = .closed) &&
    decide ((JsonKey.mk "lifecycle.reason", "expired") ∈ r.decisionContext.fill.notes.entries)

def isClosed (r : Incident) : Bool := decide (r.status = .closed)

section

variable {now : Timestamptz} {locked : List UUID} {limit : ℤ} {t t' res : List Incident}

theorem ExpiredFrom.id_eq {r r' : Incident} (h : ExpiredFrom now r r') : r'.id = r.id := by
  obtain ⟨context, -, rfl⟩ := h
  rfl

/-- **A committed sweep** has closed the first free rows by id, and no others. -/
theorem committed_sweep (ht : (t.map Incident.id).Nodup) (hlimit : 1 ≤ limit)
    (h : expireStaleIncidents now locked limit t = .ok (t', res)) :
    res.length = ((freeRows now locked t).take limit.toNat).length ∧
    List.Forall₂ (fun r r' =>
      (r ∈ (freeRows now locked t).take limit.toNat ∧ ExpiredFrom now r r') ∨
      (r ∉ (freeRows now locked t).take limit.toNat ∧ r' = r)) t t' := by
  obtain ⟨cs, hcs⟩ : ∃ cs, expirationCandidates now locked limit.toNat t = .ok cs := by
    rw [expireStaleIncidents, if_neg (by omega)] at h
    obtain ⟨cs, hcs, -⟩ := bind_eq_ok.mp h
    exact ⟨cs, hcs⟩
  have hchosen : expirationCandidates now locked limit.toNat t = _ :=
    expirationCandidates_stale ((expirationCandidates_eq now locked limit t).mp ⟨cs, hcs⟩)
  obtain rfl := Except.ok.inj (hcs.symm.trans hchosen)
  rw [expireStaleIncidents_eq ht hlimit hcs] at h
  obtain ⟨ps, hps, hback⟩ := map_eq_ok.mp h
  cases hback
  have hrows := mapM_eq_ok.mp hps
  have hexpired : List.Forall₂ (fun c (p : Incident × Option Incident) =>
      ExpiredFrom now c p.1 ∧ p.2 = some p.1) ((freeRows now locked t).take limit.toNat) ps := by
    refine hrows.imp fun c p hp => ?_
    obtain ⟨context, hcontext, rfl⟩ := expiredRow_eq_ok.mp hp
    exact ⟨⟨context, hcontext, rfl⟩, rfl⟩
  constructor
  · exact (answered hexpired).1.length_eq.symm
  · refine writeBack_forall₂ Incident.id (R := ExpiredFrom now)
      (hexpired.imp fun c p hp => ⟨hp.1.id_eq, hp.1⟩) ?_ (expirationCandidates_nodup ht hcs) ht
    exact fun c hc => (mem_freeRows.mp (List.mem_of_mem_take hc)).1.1

/-- The notes of a call name its reason, and no other. -/
theorem reason_noted {r : Incident} {a : LifecycleArgs} {context : ContextData} {text : String}
    (h : lifecycleContext r a = .ok context) :
    (JsonKey.mk "lifecycle.reason", text) ∈ context.fill.notes.entries ↔ text = a.reason := by
  obtain ⟨-, rfl⟩ := lifecycleContext_eq_ok.mp h
  rw [ContextFields.fill_dump]
  show _ ∈ (mergedNotes r.decisionContext.fill.notes a).entries ↔ _
  rw [mem_mergedNotes]
  constructor
  · rintro (hkept | ⟨n, hn, heq⟩)
    · have hnot : (!isLifecycleKey "lifecycle.reason") = true :=
        (List.mem_filter.mp ((lastItems_sublist _ _).subset hkept)).2
      exact absurd hnot (by decide)
    · obtain ⟨hkey, rfl⟩ := Prod.mk.inj heq
      have hreason : n.1 = "lifecycle.reason" := JsonKey.mk.inj hkey
      have hfirst : ("lifecycle.reason", a.reason) ∈ lifecycleNotes a := by simp [lifecycleNotes]
      have hkeys : ((lifecycleNotes a).map Prod.fst).Nodup :=
        lifecycleKeys_nodup.sublist (lifecycleNotes_keys a)
      rw [eq_of_key hkeys hn hfirst hreason]
  · rintro rfl
    exact Or.inr ⟨("lifecycle.reason", a.reason), by simp [lifecycleNotes], rfl⟩

theorem ExpiredFrom.isExpired {r r' : Incident} (h : ExpiredFrom now r r') :
    Correlia.isExpired r' = true := by
  obtain ⟨context, hcontext, rfl⟩ := h
  have hnoted : (JsonKey.mk "lifecycle.reason", "expired") ∈ context.fill.notes.entries :=
    (reason_noted hcontext).mpr rfl
  exact Bool.and_eq_true_iff.mpr ⟨rfl, decide_eq_true hnoted⟩

theorem isExpired_of_ne {r : Incident} (h : r.status ≠ .closed) : isExpired r = false := by
  rw [isExpired, decide_eq_false h, Bool.false_and]

theorem isExpired_of_open {r : Incident} (h : r.status = .«open») : isExpired r = false := by
  apply isExpired_of_ne
  rw [h]
  exact fun h => by cases h

/-- A row that is chosen was not closed, and is. -/
theorem countP_swept {p : Incident → Bool} (ht : (t.map Incident.id).Nodup) (hlimit : 1 ≤ limit)
    (h : expireStaleIncidents now locked limit t = .ok (t', res))
    (hold : ∀ r, isStale now r = true → p r = false) (hnew : ∀ r r', ExpiredFrom now r r' → p r' = true) :
    t'.countP p = t.countP p + res.length := by
  obtain ⟨hlength, hrows⟩ := committed_sweep ht hlimit h
  have hchosen : ((freeRows now locked t).take limit.toNat).Nodup :=
    (freeRows_strict ht).nodup.sublist (List.take_sublist _ _)
  rw [hlength]
  refine countP_chosen ht.of_map hchosen
    (fun r hr => (mem_freeRows.mp (List.mem_of_mem_take hr)).1.1) (hrows.imp ?_)
  rintro r r' (⟨hin, hfrom⟩ | ⟨hout, rfl⟩)
  · exact Or.inl ⟨hin, hold r (mem_freeRows.mp (List.mem_of_mem_take hin)).1.2, hnew r r' hfrom⟩
  · exact Or.inr ⟨hout, rfl⟩

theorem not_closed_of_isStale {r : Incident} (h : isStale now r = true) : r.status ≠ .closed := by
  rw [Incident.isOpen_iff.mp (isOpen_of_isStale h)]
  exact fun h => by cases h

theorem swept_expired (ht : (t.map Incident.id).Nodup) (hlimit : 1 ≤ limit)
    (h : expireStaleIncidents now locked limit t = .ok (t', res)) :
    t'.countP isExpired = t.countP isExpired + res.length :=
  countP_swept ht hlimit h (fun _ hr => isExpired_of_ne (not_closed_of_isStale hr))
    fun _ _ hfrom => hfrom.isExpired

theorem swept_closed (ht : (t.map Incident.id).Nodup) (hlimit : 1 ≤ limit)
    (h : expireStaleIncidents now locked limit t = .ok (t', res)) :
    t'.countP isClosed = t.countP isClosed + res.length := by
  refine countP_swept ht hlimit h (fun _ hr => decide_eq_false (not_closed_of_isStale hr)) ?_
  rintro r r' ⟨context, -, rfl⟩
  rfl

/-- A sweep that leaves a stale incident open, which nobody has locked, is full. -/
theorem full_of_left (ht : (t.map Incident.id).Nodup) (hlimit : 1 ≤ limit)
    (h : expireStaleIncidents now locked limit t = .ok (t', res)) {r r' : Incident} (hr : r ∈ t)
    (hstale : isStale now r = true) (hfree : r.id ∉ locked) (hr' : r' ∈ t') (hid : r'.id = r.id)
    (hopen : r'.status = .«open») : limit.toNat = res.length := by
  obtain ⟨hlength, hrows⟩ := committed_sweep ht hlimit h
  rw [hlength, List.length_take]
  suffices hmore : limit.toNat ≤ (freeRows now locked t).length by omega
  by_contra hless
  have hall : (freeRows now locked t).take limit.toNat = freeRows now locked t :=
    List.take_of_length_le (by omega)
  obtain ⟨r₀, hr₀, hcase⟩ := exists_of_forall₂_right hrows hr'
  rw [hall] at hcase
  rcases hcase with ⟨-, context, -, rfl⟩ | ⟨hout, rfl⟩
  · cases hopen
  · obtain rfl := eq_of_key ht hr₀ hr hid
    exact hout (mem_freeRows.mpr ⟨⟨hr, hstale⟩, hfree⟩)

/-! ### Any other call -/

/-- No other call closes a row with the reason of a sweep, or changes one that is. -/
theorem step_expired {op : Op} {o : Answer} (ht : (t.map Incident.id).Nodup)
    (hop : ∀ now locked n, op ≠ .expire now locked n) (h : step op t = .ok (t', o)) :
    t'.countP isExpired = t.countP isExpired := by
  by_cases hclose : ∃ now id operator reason, op = .close now id operator reason
  · obtain ⟨now, id, operator, reason, rfl⟩ := hclose
    obtain ⟨result, hresult, rfl⟩ := answer_eq_ok.mp h
    rcases closeOpenIncident_rows ht hresult with rfl | ⟨c, context, hc, rfl, hopen, hcontext, rfl⟩
    · rfl
    · refine countP_rows (updateWhere_forall₂ t fun x hx => ?_)
      by_cases hid : x.id = (closedIncident now .closed context c).id
      · obtain rfl := eq_of_key ht hx hc hid
        rw [if_pos (decide_eq_true hid), isExpired_of_open hopen]
        -- the reason of a manual close is another one
        have hnoted : ¬(JsonKey.mk "lifecycle.reason", "expired") ∈ context.fill.notes.entries := by
          rw [reason_noted hcontext]
          show ¬"expired" = "manual_close"
          decide
        exact Bool.and_eq_false_iff.mpr (Or.inr (decide_eq_false hnoted))
      · rw [if_neg fun heq => hid (of_decide_eq_true heq)]
  · rcases step_effect ht h with hrows | ⟨p, r, -, hfresh, rfl⟩
    · refine countP_rows (hrows.imp fun r r' hchange => ?_)
      cases hchange with
      | same => rfl
      | merged _ hm =>
        cases hm with
        | intro _ _ hopen =>
          rw [isExpired_of_open hopen]
          exact isExpired_of_open hopen
      | recovered _ hopen =>
        rw [isExpired_of_open hopen]
        unfold recoveredIncident
        split_ifs
        · exact isExpired_of_ne fun h => by cases h
        · exact isExpired_of_open hopen
      | acknowledged _ hopen =>
        rw [isExpired_of_open hopen]
        exact isExpired_of_open hopen
      | closed hwhich =>
        rcases hwhich with ⟨operator, reason, rfl⟩ | ⟨locked, n, rfl⟩
        · exact absurd ⟨_, _, _, _, rfl⟩ hclose
        · exact absurd rfl (hop _ _ _)
      | notified _ _ hfill =>
        unfold isExpired notifiedIncident
        dsimp only
        rw [hfill]
    · have hnew : isExpired r = false := by
        obtain ⟨_, _, _, _, _, rfl⟩ := hfresh.made
        exact isExpired_of_ne fun h => by cases h
      rw [List.countP_append, List.countP_singleton, hnew]
      simp

/-- No call opens a closed row again. -/
theorem step_closed {op : Op} {o : Answer} (ht : (t.map Incident.id).Nodup)
    (h : step op t = .ok (t', o)) : t.countP isClosed ≤ t'.countP isClosed := by
  rcases step_effect ht h with hrows | ⟨p, r, -, -, rfl⟩
  · refine countP_rows_le (hrows.imp fun r r' hchange hr => ?_)
    have hclosed : r.status = .closed := of_decide_eq_true hr
    have hsame : r'.status = r.status := hchange.later.status.resolve_right fun h => by
      rw [hclosed] at h
      cases h.1
    exact decide_eq_true (hsame.trans hclosed)
  · rw [List.countP_append]
    exact Nat.le_add_right _ _

end

/-! ### One move -/

/-- Not a sweep. -/
def Activity.Foreign : Activity → Prop
  | .expire .. => False
  | _ => True

/-- `healthy`, `last_sweep_at` and `last_error_category` -/
structure Health where
  healthy : Bool := false
  lastSweepAt : Option Timestamptz := none
  lastErrorCategory : Option String := none

def LifecycleWorker.health (w : LifecycleWorker) : Health :=
  ⟨w.healthy, w.lastSweepAt, w.lastErrorCategory⟩

def UpkeepMove.cut : UpkeepMove → Option SweepCut
  | .raised _ _ cut _ => some cut
  | .cancelled _ _ cut => some cut
  | _ => none

section

variable {s s' : Upkeep} {m : UpkeepMove} {o : Option Sweep}

/-- Any other transaction makes another call than a sweep, or none. -/
theorem serve_foreign {a : Activity} {w w' : World} {u : Unit} (ha : a.Foreign)
    (h : serve a w = .ok (w', u)) :
    w'.database.incidents = w.database.incidents ∨ ∃ op answer, (∀ now locked n, op ≠ .expire now locked n) ∧
      step op w.database.incidents = .ok (w'.database.incidents, answer) := by
  cases a with
  | ingress call =>
    obtain ⟨k, hcommit, rfl⟩ := serve_ingress h
    obtain ⟨decision, -, -, hcommitted, -⟩ := call.commit_eq_some hcommit
    refine hcommitted.event_op.imp_right ?_
    rintro ⟨op, o, hevent, hstep⟩
    refine ⟨op, o, ?_, hstep⟩
    rintro now locked n rfl
    exact hevent
  | acknowledge now id request =>
    obtain ⟨t, result, hcall, rfl⟩ := World.write_eq_ok h
    exact Or.inr ⟨.ack now id request.val.operator, _, (fun _ _ _ heq => by cases heq),
      answer_eq_ok.mpr ⟨result, hcall, rfl⟩⟩
  | close now id request =>
    obtain ⟨t, result, hcall, rfl⟩ := World.write_eq_ok h
    exact Or.inr ⟨.close now id request.val.operator request.val.reason, _,
      (fun _ _ _ heq => by cases heq), answer_eq_ok.mpr ⟨result, hcall, rfl⟩⟩
  | expire now locked limit => exact ha.elim
  | complete now completion =>
    obtain ⟨-, ⟨-, rfl⟩ | ⟨result, t, found, -, hcall, rfl⟩⟩ := serve_complete h
    · exact Or.inl rfl
    · exact Or.inr ⟨.recordNotification now completion.target.1 completion.target.2 result, _,
        (fun _ _ _ heq => by cases heq), answer_eq_ok.mpr ⟨found, hcall, rfl⟩⟩

/-- What a move does to the database and to what is counted. -/
inductive Tended (s : Upkeep) (m : UpkeepMove) : Upkeep → Option Sweep → Prop
  | quiet {s' : Upkeep} (hworld : s'.world = s.world ∨
        ∃ a : Activity, a.Foreign ∧ serve a s.world = .ok (s'.world, ()))
      (hbatch : s'.worker.batchSize = s.worker.batchSize)
      (htotal : s'.worker.expiredTotal = s.worker.expiredTotal)
      (heffects : s'.expiredEffects = s.expiredEffects) : Tended s m s' none
  | rolledBack {s' : Upkeep} (hcut : m.cut = some .beforeCommit) (hworld : s'.world = s.world)
      (hbatch : s'.worker.batchSize = s.worker.batchSize)
      (htotal : s'.worker.expiredTotal = s.worker.expiredTotal)
      (heffects : s.expiredEffects ≤ s'.expiredEffects) : Tended s m s' none
  | swept {s' : Upkeep} {now : Timestamptz} {locked : List UUID} {t closed : List Incident}
      (hsweep : expireStaleIncidents now locked s.worker.batchSize.val s.world.database.incidents =
        .ok (t, closed))
      (hworld : s'.world = s.world.withIncidents t)
      (hbatch : s'.worker.batchSize = s.worker.batchSize)
      (htotal : m.cut = none ∧ s'.worker.expiredTotal = s.worker.expiredTotal + closed.length ∨
        m.cut = some .afterCommit ∧ s'.worker.expiredTotal = s.worker.expiredTotal)
      (heffects : s'.expiredEffects = s.expiredEffects + closed.length) :
      Tended s m s' (some ⟨now, locked, s.world.database.incidents, closed, t⟩)

theorem expireStaleBatch_eq_ok {now : Timestamptz} {locked : List UUID} {sweep : Sweep}
    (h : s.expireStaleBatch now locked = .ok (s', sweep)) : ∃ t closed,
      expireStaleIncidents now locked s.worker.batchSize.val s.world.database.incidents =
        .ok (t, closed) ∧
      s' = { s with
        world := s.world.withIncidents t
        expiredEffects := s.expiredEffects + closed.length } ∧
      sweep = ⟨now, locked, s.world.database.incidents, closed, t⟩ := by
  unfold Upkeep.expireStaleBatch at h
  split at h
  · rename_i t closed hsweep
    cases h
    exact ⟨t, closed, hsweep, rfl, rfl⟩
  · cases h

/-- A sweep that was cut, whatever the worker is left as. -/
theorem cutSweep_tended {now : Timestamptz} {locked : List UUID} {cut : SweepCut}
    (hm : m.cut = some cut) (h : s.cutSweep now locked cut = .ok (s', o)) {worker : LifecycleWorker}
    (hbatch : worker.batchSize = s'.worker.batchSize)
    (htotal : worker.expiredTotal = s'.worker.expiredTotal) :
    Tended s m (s'.withWorker worker) o := by
  cases cut with
  | beforeEffects =>
    cases h
    exact .quiet (Or.inl rfl) hbatch htotal rfl
  | beforeCommit =>
    obtain ⟨⟨swept, sweep⟩, hswept, h⟩ := bind_eq_ok.mp h
    cases h
    obtain ⟨t, closed, -, rfl, -⟩ := expireStaleBatch_eq_ok hswept
    exact .rolledBack hm rfl hbatch htotal (Nat.le_add_right _ _)
  | afterCommit =>
    obtain ⟨⟨swept, sweep⟩, hswept, h⟩ := bind_eq_ok.mp h
    cases h
    obtain ⟨t, closed, hsweep, rfl, rfl⟩ := expireStaleBatch_eq_ok hswept
    exact .swept hsweep rfl hbatch (Or.inr ⟨hm, htotal⟩) rfl

theorem start_withWorker (h : s.start = .ok s') : ∃ worker, s' = s.withWorker worker ∧
    worker.batchSize = s.worker.batchSize ∧ worker.expiredTotal = s.worker.expiredTotal ∧
    worker.health = s.worker.health := by
  unfold Upkeep.start at h
  split_ifs at h
  split at h <;> cases h
  all_goals exact ⟨_, rfl, rfl, rfl, rfl⟩

theorem stop_withWorker (h : s.stop = .ok s') : ∃ worker, s' = s.withWorker worker ∧
    worker.batchSize = s.worker.batchSize ∧ worker.expiredTotal = s.worker.expiredTotal ∧
    worker.health = s.worker.health := by
  unfold Upkeep.stop at h
  split at h <;> cases h
  all_goals exact ⟨_, rfl, rfl, rfl, rfl⟩

theorem other_eq_ok {a : Activity} (h : Upkeep.move (.other a) s = .ok (s', o)) :
    a.Foreign ∧ ∃ w, serve a s.world = .ok (w, ()) ∧ s' = { s with world := w } ∧ o = none := by
  have ha : a.Foreign := by
    cases a with
    | expire => cases h
    | _ => trivial
  cases hserve : serve a s.world with
  | ok p =>
    obtain ⟨w, u⟩ := p
    have hmove : Upkeep.move (.other a) s = .ok ({ s with world := w }, none) := by
      cases a <;> first | exact ha.elim | simp only [Upkeep.move, hserve]
    rw [hmove] at h
    cases h
    exact ⟨ha, w, rfl, rfl, rfl⟩
  | error e =>
    have hmove : Upkeep.move (.other a) s = .error .notThere := by
      cases a <;> first | exact ha.elim | simp only [Upkeep.move, hserve]
    rw [hmove] at h
    cases h

/-- **One move**, as `Tended` says. -/
theorem move_tended (h : Upkeep.move m s = .ok (s', o)) : Tended s m s' o := by
  cases m with
  | other a =>
    obtain ⟨ha, w, hserve, rfl, rfl⟩ := other_eq_ok h
    exact .quiet (Or.inr ⟨a, ha, hserve⟩) rfl rfl rfl
  | start =>
    obtain ⟨s₁, hstart, h⟩ := map_eq_ok.mp h
    cases h
    obtain ⟨worker, rfl, hbatch, htotal, -⟩ := start_withWorker hstart
    exact .quiet (Or.inl rfl) hbatch htotal rfl
  | stop =>
    obtain ⟨s₁, hstop, h⟩ := map_eq_ok.mp h
    cases h
    obtain ⟨worker, rfl, hbatch, htotal, -⟩ := stop_withWorker hstop
    exact .quiet (Or.inl rfl) hbatch htotal rfl
  | enter =>
    unfold Upkeep.move at h
    dsimp only at h
    split_ifs at h
    cases h
    exact .quiet (Or.inl rfl) rfl rfl rfl
  | returned now at' locked =>
    unfold Upkeep.move at h
    dsimp only at h
    split_ifs at h
    obtain ⟨⟨swept, sweep⟩, hswept, h⟩ := map_eq_ok.mp h
    cases h
    obtain ⟨t, closed, hsweep, rfl, rfl⟩ := expireStaleBatch_eq_ok hswept
    exact .swept hsweep rfl rfl (Or.inl ⟨rfl, rfl⟩) rfl
  | raised now locked cut category =>
    unfold Upkeep.move at h
    dsimp only at h
    split_ifs at h
    obtain ⟨⟨swept, sweep⟩, hswept, h⟩ := map_eq_ok.mp h
    cases h
    exact cutSweep_tended rfl hswept rfl rfl
  | wake =>
    unfold Upkeep.move at h
    dsimp only at h
    split_ifs at h
    cases h
    exact .quiet (Or.inl rfl) rfl rfl rfl
  | joined =>
    unfold Upkeep.move at h
    dsimp only at h
    split_ifs at h
    cases h
    exact .quiet (Or.inl rfl) rfl rfl rfl
  | cancelled now locked cut =>
    unfold Upkeep.move at h
    dsimp only at h
    split_ifs at h
    split at h
    · obtain ⟨⟨swept, sweep⟩, hswept, h⟩ := map_eq_ok.mp h
      cases h
      exact cutSweep_tended rfl hswept rfl rfl
    all_goals
      cases h
      try exact .quiet (Or.inl rfl) rfl rfl rfl

/-! ### How sweeps end -/

/-- How a sweep ends for the worker. -/
def UpkeepMove.ending : UpkeepMove → Option (Except String Timestamptz)
  | .returned _ at' _ => some (.ok at')
  | .raised _ _ _ category => some (.error category)
  | _ => none

def Health.after (h : Health) : Except String Timestamptz → Health
  | .ok at' => ⟨true, some at', none⟩
  | .error category => ⟨false, h.lastSweepAt, some category⟩

theorem cutSweep_health {now : Timestamptz} {locked : List UUID} {cut : SweepCut}
    (h : s.cutSweep now locked cut = .ok (s', o)) : s'.worker = s.worker := by
  cases cut with
  | beforeEffects =>
    cases h
    rfl
  | beforeCommit =>
    obtain ⟨⟨swept, sweep⟩, -, h⟩ := bind_eq_ok.mp h
    cases h
    rfl
  | afterCommit =>
    obtain ⟨⟨swept, sweep⟩, hswept, h⟩ := bind_eq_ok.mp h
    cases h
    obtain ⟨t, closed, -, rfl, -⟩ := expireStaleBatch_eq_ok hswept
    rfl

/-- Only a sweep that ends changes what the worker tells of itself. -/
theorem move_health (h : Upkeep.move m s = .ok (s', o)) :
    s'.worker.health = m.ending.toList.foldl Health.after s.worker.health := by
  cases m with
  | other a =>
    obtain ⟨-, w, -, rfl, -⟩ := other_eq_ok h
    rfl
  | start =>
    obtain ⟨s₁, hstart, h⟩ := map_eq_ok.mp h
    cases h
    obtain ⟨worker, rfl, -, -, hhealth⟩ := start_withWorker hstart
    exact hhealth
  | stop =>
    obtain ⟨s₁, hstop, h⟩ := map_eq_ok.mp h
    cases h
    obtain ⟨worker, rfl, -, -, hhealth⟩ := stop_withWorker hstop
    exact hhealth
  | returned now at' locked =>
    unfold Upkeep.move at h
    dsimp only at h
    split_ifs at h
    obtain ⟨⟨swept, sweep⟩, -, h⟩ := map_eq_ok.mp h
    cases h
    rfl
  | raised now locked cut category =>
    unfold Upkeep.move at h
    dsimp only at h
    split_ifs at h
    obtain ⟨⟨swept, sweep⟩, hswept, h⟩ := map_eq_ok.mp h
    cases h
    have hworker := cutSweep_health hswept
    show Health.mk false swept.worker.lastSweepAt (some category) = _
    rw [hworker]
    rfl
  | cancelled now locked cut =>
    unfold Upkeep.move at h
    dsimp only at h
    split_ifs at h
    split at h
    · obtain ⟨⟨swept, sweep⟩, hswept, h⟩ := map_eq_ok.mp h
      cases h
      have hworker := cutSweep_health hswept
      show Health.mk swept.worker.healthy swept.worker.lastSweepAt swept.worker.lastErrorCategory = _
      rw [hworker]
      rfl
    all_goals
      cases h
      try rfl
  | _ =>
    unfold Upkeep.move at h
    dsimp only at h
    split_ifs at h
    cases h
    rfl

end

/-! ### Whole runs -/

/-- The state after a run. -/
def upkeepAfter (b : BatchSize) (moves : List UpkeepMove) : Upkeep :=
  run Upkeep.move (Upkeep.init b) moves

/-- The moves of a run, each with the sweep it committed. -/
def upkeepLog (b : BatchSize) (moves : List UpkeepMove) : List (UpkeepMove × Option Sweep) :=
  log Upkeep.move (Upkeep.init b) moves

/-- A sweep found the incident stale and not locked elsewhere, and left it open. -/
def Sweep.leavesBehind (id : UUID) (s : Sweep) : Bool :=
  decide (id ∉ s.locked) && (s.before.any fun r => decide (r.id = id) && isStale s.now r) &&
    s.after.any fun r => decide (r.id = id) && r.isOpen

/-- How many sweeps have left the incident behind. -/
def sweepsPast (id : UUID) (l : List (UpkeepMove × Option Sweep)) : ℕ :=
  l.countP fun e => e.2.any (Sweep.leavesBehind id)

/-- The rows closed by sweeps that committed and did not return. -/
def lostRows (l : List (UpkeepMove × Option Sweep)) : ℕ :=
  (l.map fun e => if e.1.cut = some .afterCommit then
    e.2.elim 0 fun sweep => sweep.closed.length else 0).sum

/-- The log against the state. -/
structure Tallied (b : BatchSize) (l : List (UpkeepMove × Option Sweep)) (s : Upkeep) : Prop where
  world : ∃ acts, s.world = worldAfter acts
  batch : s.worker.batchSize = b
  expired : s.world.database.incidents.countP isExpired = s.worker.expiredTotal + lostRows l
  effects : s.world.database.incidents.countP isExpired ≤ s.expiredEffects
  exact : (∀ e ∈ l, e.1.cut ≠ some .beforeCommit) →
    s.world.database.incidents.countP isExpired = s.expiredEffects
  closed : ∀ id, sweepsPast id l * b.val.toNat ≤ s.world.database.incidents.countP isClosed
  health : s.worker.health =
    (l.filterMap fun e => e.1.ending).foldl Health.after {}

section

variable {b : BatchSize} {l : List (UpkeepMove × Option Sweep)} {s s' : Upkeep} {m : UpkeepMove}
  {o : Option Sweep}

theorem lostRows_concat (l : List (UpkeepMove × Option Sweep)) (e : UpkeepMove × Option Sweep) :
    lostRows (l ++ [e]) = lostRows l + if e.1.cut = some .afterCommit then
      e.2.elim 0 fun sweep => sweep.closed.length else 0 := by
  simp [lostRows]

theorem lostRows_concat_none (l : List (UpkeepMove × Option Sweep)) (m : UpkeepMove) :
    lostRows (l ++ [(m, none)]) = lostRows l := by
  rw [lostRows_concat]
  split_ifs <;> rfl

theorem sweepsPast_concat (id : UUID) (l : List (UpkeepMove × Option Sweep))
    (e : UpkeepMove × Option Sweep) : sweepsPast id (l ++ [e]) =
      sweepsPast id l + if e.2.any (Sweep.leavesBehind id) = true then 1 else 0 := by
  rw [sweepsPast, List.countP_append, List.countP_singleton]
  rfl

theorem ids_of_world (h : ∃ acts, s.world = worldAfter acts) :
    (s.world.database.incidents.map Incident.id).Nodup := by
  obtain ⟨acts, hworld⟩ := h
  obtain ⟨ops, -, htable⟩ := worldAfter_stored acts
  rw [hworld, htable]
  exact ids_nodup ops

/-- A sweep that leaves an incident behind has closed a full batch. -/
theorem leavesBehind_full {now : Timestamptz} {locked : List UUID} {t t' closed : List Incident}
    {limit : ℤ} {id : UUID} (ht : (t.map Incident.id).Nodup) (hlimit : 1 ≤ limit)
    (h : expireStaleIncidents now locked limit t = .ok (t', closed))
    (hleft : (Sweep.mk now locked t closed t').leavesBehind id = true) : limit.toNat = closed.length := by
  obtain ⟨hbefore, hafter⟩ := Bool.and_eq_true_iff.mp hleft
  obtain ⟨hfree, hbefore⟩ := Bool.and_eq_true_iff.mp hbefore
  obtain ⟨r, hr, hstale⟩ := List.any_eq_true.mp hbefore
  obtain ⟨r', hr', hopen⟩ := List.any_eq_true.mp hafter
  obtain ⟨hid, hstale⟩ := Bool.and_eq_true_iff.mp hstale
  obtain ⟨hid', hopen⟩ := Bool.and_eq_true_iff.mp hopen
  have hfree : r.id ∉ locked := of_decide_eq_true hid ▸ of_decide_eq_true hfree
  exact full_of_left ht hlimit h hr hstale hfree hr'
    ((of_decide_eq_true hid').trans (of_decide_eq_true hid).symm) (Incident.isOpen_iff.mp hopen)

theorem Tallied.step (hl : Tallied b l s) (h : Upkeep.move m s = .ok (s', o)) :
    Tallied b (l ++ [(m, o)]) s' := by
  have ht := ids_of_world hl.world
  obtain ⟨acts, hworld⟩ := hl.world
  have hhealth : s'.worker.health =
      ((l ++ [(m, o)]).filterMap fun e => e.1.ending).foldl Health.after {} := by
    rw [move_health h, hl.health, List.filterMap_append, List.foldl_append]
    cases hending : m.ending <;> simp [hending]
  cases move_tended h with
  | quiet hsame hbatch htotal heffects =>
    have hcounts : s'.world.database.incidents.countP isExpired =
        s.world.database.incidents.countP isExpired ∧
        s.world.database.incidents.countP isClosed ≤ s'.world.database.incidents.countP isClosed := by
      rcases hsame with hsame | ⟨a, ha, hserve⟩
      · rw [hsame]
        exact ⟨rfl, le_rfl⟩
      · rcases serve_foreign ha hserve with hsame | ⟨op, answer, hop, hstep⟩
        · rw [hsame]
          exact ⟨rfl, le_rfl⟩
        · exact ⟨step_expired ht hop hstep, step_closed ht hstep⟩
    refine ⟨?_, hbatch.trans hl.batch, ?_, ?_, ?_, fun id => ?_, hhealth⟩
    · rcases hsame with hsame | ⟨a, -, hserve⟩
      · exact ⟨acts, hsame.trans hworld⟩
      · rw [hworld] at hserve
        exact ⟨acts ++ [a], (run_concat_ok hserve).1.symm⟩
    · rw [hcounts.1, lostRows_concat_none, htotal, hl.expired]
    · rw [hcounts.1, heffects]
      exact hl.effects
    · intro hall
      rw [hcounts.1, heffects]
      exact hl.exact fun e he => hall e (List.mem_append_left _ he)
    · rw [sweepsPast_concat, if_neg (by simp), Nat.add_zero]
      exact (hl.closed id).trans hcounts.2
  | rolledBack hcut hsame hbatch htotal heffects =>
    refine ⟨⟨acts, hsame.trans hworld⟩, hbatch.trans hl.batch, ?_, ?_, ?_, fun id => ?_, hhealth⟩
    · rw [hsame, lostRows_concat_none, htotal, hl.expired]
    · rw [hsame]
      exact hl.effects.trans heffects
    · exact fun hall => absurd hcut (hall (m, none) (by simp))
    · rw [hsame, sweepsPast_concat, if_neg (by simp), Nat.add_zero]
      exact hl.closed id
  | @swept now locked t closed hsweep hafter hbatch htotal heffects =>
    have hlimit := s.worker.batchSize.property
    have hexpired := swept_expired ht hlimit hsweep
    have hclosed := swept_closed ht hlimit hsweep
    have htable : s'.world.database.incidents = t := by
      rw [hafter]
      rfl
    refine ⟨?_, hbatch.trans hl.batch, ?_, ?_, ?_, fun id => ?_, hhealth⟩
    · -- the sweep is a transaction of the service
      have hserve : serve (.expire now locked s.worker.batchSize.val) (worldAfter acts) =
          .ok (s'.world, ()) := by
        show (worldAfter acts).write _ = _
        rw [← hworld, World.write, hsweep, hafter]
      exact ⟨acts ++ [_], (run_concat_ok hserve).1.symm⟩
    · rw [htable, hexpired, hl.expired, lostRows_concat]
      rcases htotal with ⟨hcut, htotal⟩ | ⟨hcut, htotal⟩
      · rw [if_neg (by rw [hcut]; exact fun h => by cases h), htotal]
        omega
      · rw [if_pos hcut, htotal]
        exact Nat.add_assoc _ _ _
    · rw [htable, hexpired, heffects]
      exact Nat.add_le_add_right hl.effects _
    · intro hall
      rw [htable, hexpired, heffects, hl.exact fun e he => hall e (List.mem_append_left _ he)]
    · rw [htable, hclosed, sweepsPast_concat]
      have hbefore := hl.closed id
      split_ifs with hleft
      · have hfull := leavesBehind_full ht hlimit hsweep hleft
        rw [hl.batch] at hfull
        rw [Nat.add_mul, Nat.one_mul, hfull]
        rw [hfull] at hbefore
        omega
      · exact hbefore.trans (Nat.le_add_right _ _)

/-- Every run is tallied. -/
theorem tallied (b : BatchSize) (moves : List UpkeepMove) :
    Tallied b (upkeepLog b moves) (upkeepAfter b moves) := by
  refine run_induction (R := fun l s => Tallied b l s) ?_ (fun _ _ _ _ hl h => hl.step h) moves
  exact ⟨⟨[], rfl⟩, rfl, rfl, le_rfl, fun _ => rfl, fun id => Nat.le_of_eq (Nat.zero_mul _), rfl⟩

end

/-- **The worker and the table.**  In every run of the worker beside everything else, with sweeps that
raise or are cancelled anywhere: the closed rows that name a sweep as their reason are what the worker
has counted and what it lost to sweeps cut between commit and return; the effects counted are no
fewer, and as many when no sweep was cut between counting and commit; and the worker tells of itself
how the sweeps have ended, in order. -/
theorem worker_tells_the_table (b : BatchSize) (moves : List UpkeepMove) :
    (upkeepAfter b moves).world.database.incidents.countP isExpired =
      (upkeepAfter b moves).worker.expiredTotal + lostRows (upkeepLog b moves) ∧
    (upkeepAfter b moves).world.database.incidents.countP isExpired ≤
      (upkeepAfter b moves).expiredEffects ∧
    ((∀ e ∈ upkeepLog b moves, e.1.cut ≠ some .beforeCommit) →
      (upkeepAfter b moves).world.database.incidents.countP isExpired =
        (upkeepAfter b moves).expiredEffects) ∧
    (upkeepAfter b moves).worker.health =
      ((upkeepLog b moves).filterMap fun e => e.1.ending).foldl Health.after {} :=
  have h := tallied b moves
  ⟨h.expired, h.effects, h.exact, h.health⟩

end Correlia
