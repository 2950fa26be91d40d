import Correlia.Deliveries

/-!
# DeliveryEndings — what the incidents tell of their deliveries

The recordings of a run are its recorded endings, in the same order, so the records of an incident
are exactly the recorded endings of its deliveries; and a result that is recorded as one of a call
of the plugin is recorded for deliveries that were sent, and for no others.
-/

namespace Correlia

open Lib

namespace Pipeline

variable {s s' : Pipeline} {acts : List Activity} {m : PipelineMove}
  {l : List (PipelineMove × List Activity)}

/-! ### Results tell whether the plugin was called -/

/-- The plugin has been called for the delivery. -/
def Sent (s : Pipeline) (k : UUID × String) : Prop := ∃ p ∈ s.sends, p.1.target = k

/-- The result is stored as it is, and is that of a call where there was one. -/
structure TrueOf (s : Pipeline) (k : UUID × String) (result : NotificationResult) : Prop where
  safe : safeDeliveryResult result = result
  sent : s.Sent k ↔ ∃ sends, result = sendResult sends

/-- What tasks and endings tell is true. -/
structure Honest (s : Pipeline) : Prop where
  sending : ∀ t ∈ s.tasks, t.phase = .sending → s.Sent t.task.target
  recording : ∀ t ∈ s.tasks, ∀ result, t.phase = .recording result → s.TrueOf t.task.target result
  recorded : ∀ k result, (k, .recorded result) ∈ s.ended → s.TrueOf k result

/-- Every result that is recorded is stored as it is. -/
theorem recorded_safe : ∀ result ∈ [missingRunner, missingPlugin, submitFailed, stalePlugin,
    pluginFailed, notificationDispatched], safeDeliveryResult result = result := by
  intro result hresult
  fin_cases hresult <;> rfl

theorem sendResult_safe (sends : Bool) : safeDeliveryResult (sendResult sends) = sendResult sends := by
  cases sends <;> exact recorded_safe _ (by simp [sendResult])

/-- A result given without a call of the plugin. -/
theorem trueOf_unsent {k : UUID × String} {result : NotificationResult} (hsent : ¬s.Sent k)
    (hresult : result ∈ [missingRunner, missingPlugin, submitFailed, stalePlugin]) :
    s.TrueOf k result := by
  refine ⟨recorded_safe result ?_, iff_of_false hsent ?_⟩
  · simp only [List.mem_cons, List.not_mem_nil, or_false] at hresult ⊢
    rcases hresult with h | h | h | h <;> simp [h]
  · rintro ⟨sends, rfl⟩
    cases sends <;> exact absurd hresult (by decide)

theorem Sound.unsent (h : s.Sound l) {k : UUID × String}
    (hk : k ∈ s.requested + Place.holding RunnerTask.unsent s.tasks) : ¬s.Sent k := by
  rintro ⟨p, hp, rfl⟩
  exact (h.sending.once h.once).2.2 _ hk p.2 (List.mem_map_of_mem hp)

theorem mem_unsent {t : RunnerTask} (ht : t ∈ s.tasks) {k : UUID × String} (hk : k ∈ t.unsent) :
    k ∈ s.requested + Place.holding RunnerTask.unsent s.tasks :=
  Multiset.mem_add.mpr (Or.inr (Multiset.mem_coe.mpr (List.mem_flatMap.mpr ⟨t, ht, hk⟩)))

theorem mem_requested {i : ℕ} {r : PostCommit} (hr : s.requests[i]? = some r) {k : UUID × String}
    (hk : k ∈ r.targets) : k ∈ s.requested :=
  Multiset.mem_coe.mpr (List.mem_flatMap.mpr ⟨r, List.mem_of_getElem? hr, hk⟩)

/-- No two tasks have one delivery. -/
theorem Sound.eq_of_target (h : s.Sound l) {t t' : RunnerTask} (ht : t ∈ s.tasks)
    (ht' : t' ∈ s.tasks) (heq : t.task.target = t'.task.target) : t = t' := by
  have hinHand : s.inHand.Nodup :=
    Multiset.coe_nodup.mp (h.conserved.within.once h.once).1
  have htasks : (s.tasks.map fun t => t.task.target).Nodup := by
    rw [List.map_eq_flatMap]
    exact (List.nodup_append'.mp hinHand).2.1
  exact List.inj_on_of_nodup_map htasks ht ht' heq

theorem Sound.due_of_ended (h : s.Sound l) {k : UUID × String} {e : Ending} (hk : (k, e) ∈ s.ended) :
    k ∈ s.world.due := h.conserved.mem_issued_iff.mpr (Or.inr ⟨e, hk⟩)

theorem Sound.not_ended (h : s.Sound l) {t : RunnerTask} (ht : t ∈ s.tasks) (e : Ending) :
    (t.task.target, e) ∉ s.ended := by
  refine (h.conserved.within.once h.once).2.2 _ (Multiset.mem_coe.mpr ?_) e
  exact List.mem_append_right _ (List.mem_flatMap.mpr ⟨t, ht, List.mem_singleton_self _⟩)

/-- The tasks of `s'` are tasks of `s`, but for one that is neither sending nor recording. -/
theorem Honest.quiet (h : s.Honest) (hsends : s'.sends = s.sends)
    (htasks : ∀ t ∈ s'.tasks, t ∈ s.tasks ∨
      t.phase ≠ .sending ∧ ∀ result, t.phase ≠ .recording result)
    (hended : ∀ k result, (k, .recorded result) ∈ s'.ended → (k, .recorded result) ∈ s.ended ∨
      s.TrueOf k result) : s'.Honest := by
  have hsame : ∀ k, s'.Sent k ↔ s.Sent k := by
    intro k
    rw [Sent, hsends, Sent]
  have htrue : ∀ k result, s.TrueOf k result → s'.TrueOf k result := fun k result htrue =>
    ⟨htrue.safe, (hsame k).trans htrue.sent⟩
  constructor
  · intro t ht hphase
    rcases htasks t ht with hold | ⟨hne, -⟩
    · exact (hsame _).mpr (h.sending t hold hphase)
    · exact absurd hphase hne
  · intro t ht result hphase
    rcases htasks t ht with hold | ⟨-, hne⟩
    · exact htrue _ _ (h.recording t hold result hphase)
    · exact absurd hphase (hne result)
  · intro k result hk
    rcases hended k result hk with hold | hnew
    · exact htrue _ _ (h.recorded k result hold)
    · exact htrue _ _ hnew

/-- A task that ends, with a result that is true if it is recorded. -/
theorem Honest.finish (h : s.Honest) {i : ℕ} {k : UUID × String} {e : Ending}
    (hsends : s'.sends = s.sends) (htasks : s'.tasks = s.tasks.eraseIdx i)
    (hended : s'.ended = s.ended ++ [(k, e)])
    (he : ∀ result, e = .recorded result → s.TrueOf k result) : s'.Honest := by
  refine h.quiet hsends (fun t ht => Or.inl ?_) fun k' result hk => ?_
  · rw [htasks] at ht
    exact List.mem_of_mem_eraseIdx ht
  · rw [hended] at hk
    rcases List.mem_append.mp hk with hold | hnew
    · exact Or.inl hold
    · obtain ⟨rfl, hresult⟩ := Prod.mk.inj (List.mem_singleton.mp hnew)
      exact Or.inr (he result hresult.symm)

/-- A task that goes on to a recording of a true result. -/
theorem Honest.setRecording (h : s.Honest) {i : ℕ} {task : NotifyTask} {result : NotificationResult}
    (hresult : s.TrueOf task.target result) (hsends : s'.sends = s.sends)
    (htasks : s'.tasks = s.tasks.set i ⟨task, .recording result⟩) (hended : s'.ended = s.ended) :
    s'.Honest := by
  have hsame : ∀ k, s'.Sent k ↔ s.Sent k := by
    intro k
    rw [Sent, hsends, Sent]
  have hcases : ∀ t ∈ s'.tasks, t ∈ s.tasks ∨ t = ⟨task, .recording result⟩ := by
    intro t ht
    rw [htasks] at ht
    exact List.mem_or_eq_of_mem_set ht
  constructor
  · intro t ht hphase
    rcases hcases t ht with hold | rfl
    · exact (hsame _).mpr (h.sending t hold hphase)
    · cases hphase
  · intro t ht result' hphase
    rcases hcases t ht with hold | rfl
    · have htrue := h.recording t hold result' hphase
      exact ⟨htrue.safe, (hsame _).trans htrue.sent⟩
    · obtain rfl := TaskPhase.recording.inj hphase
      exact ⟨hresult.safe, (hsame _).trans hresult.sent⟩
  · intro k result' hk
    rw [hended] at hk
    have htrue := h.recorded k result' hk
    exact ⟨htrue.safe, (hsame _).trans htrue.sent⟩

/-- A call of the plugin makes one delivery sent, which is neither recording nor ended. -/
theorem Honest.send (h : s.Honest) (hsound : s.Sound l) {i : ℕ} {task : NotifyTask}
    {envelope : NotificationEnvelope} (htask : s.tasks[i]? = some ⟨task, .loaded envelope⟩) :
    Honest { s.goOn i task .sending with sends := s.sends ++ [(task, envelope)] } := by
  have hmem := List.mem_of_getElem? htask
  have hold : ∀ k, s.Sent k → Sent { s.goOn i task .sending with
      sends := s.sends ++ [(task, envelope)] } k := by
    rintro k ⟨p, hp, rfl⟩
    exact ⟨p, List.mem_append_left _ hp, rfl⟩
  have hsame : ∀ k, k ≠ task.target → (Sent { s.goOn i task .sending with
      sends := s.sends ++ [(task, envelope)] } k ↔ s.Sent k) := by
    refine fun k hk => ⟨?_, hold k⟩
    rintro ⟨p, hp, rfl⟩
    rcases List.mem_append.mp hp with hp | hp
    · exact ⟨p, hp, rfl⟩
    · rw [List.mem_singleton.mp hp] at hk
      exact absurd rfl hk
  constructor
  · intro t ht hphase
    rcases List.mem_or_eq_of_mem_set ht with ht | rfl
    · exact hold _ (h.sending t ht hphase)
    · exact ⟨(task, envelope), List.mem_append_right _ (List.mem_singleton_self _), rfl⟩
  · intro t ht result hphase
    rcases List.mem_or_eq_of_mem_set ht with ht | rfl
    · have htrue := h.recording t ht result hphase
      refine ⟨htrue.safe, (hsame _ fun heq => ?_).trans htrue.sent⟩
      rw [hsound.eq_of_target ht hmem heq] at hphase
      cases hphase
    · cases hphase
  · intro k result hk
    have htrue := h.recorded k result hk
    refine ⟨htrue.safe, (hsame _ ?_).trans htrue.sent⟩
    rintro rfl
    exact hsound.not_ended hmem _ hk

theorem Honest.step (h : s.Honest) (hsound : s.Sound l) (hmove : s.Moves m acts s') :
    s'.Honest := by
  cases hmove with
  | transact | answered => exact h.quiet rfl (fun t ht => Or.inl ht) fun k result hk => Or.inl hk
  | accepted =>
    refine h.quiet rfl (fun t ht => ?_) fun k result hk => Or.inl hk
    rcases List.mem_append.mp ht with hold | hnew
    · exact Or.inl hold
    · rw [List.mem_singleton.mp hnew]
      refine Or.inr ⟨?_, ?_⟩
      · intro heq
        cases heq
      · intro result heq
        cases heq
  | @terminal _ r pluginName _ outcome result _ _ _ _ hr hrest _ hterminal =>
    refine h.quiet rfl (fun t ht => Or.inl ht) fun k result' hk => ?_
    rcases List.mem_append.mp hk with hold | hnew
    · exact Or.inl hold
    · obtain ⟨rfl, hresult⟩ := Prod.mk.inj (List.mem_singleton.mp hnew)
      obtain rfl := Ending.recorded.inj hresult
      have hk : (r.incidentId, pluginName) ∈ r.targets := by
        rw [PostCommit.targets, hrest]
        exact List.mem_cons_self
      refine Or.inr (trueOf_unsent
        (hsound.unsent (Multiset.mem_add.mpr (Or.inl (mem_requested hr hk)))) ?_)
      cases outcome with
      | accepted => cases hterminal
      | _ =>
        obtain rfl := Option.some.inj hterminal
        simp
  | aborted =>
    refine h.quiet rfl (fun t ht => Or.inl ht) fun k result hk => ?_
    rcases List.mem_append.mp hk with hold | hnew
    · exact Or.inl hold
    · rcases List.mem_cons.mp hnew with heq | hdropped
      · cases heq
      · obtain ⟨_, -, heq⟩ := List.mem_map.mp hdropped
        cases heq
  | returned | unloaded => exact h.finish rfl rfl rfl fun result heq => by cases heq
  | @refused i task result _ htask hopening =>
    refine h.setRecording (trueOf_unsent (hsound.unsent
      (mem_unsent (List.mem_of_getElem? htask) (List.mem_singleton_self _))) ?_) rfl rfl rfl
    rcases NotificationDispatcher.opening_records hopening with rfl | rfl <;> simp
  | loaded =>
    refine h.quiet rfl (fun t ht => ?_) fun k result hk => Or.inl hk
    rcases List.mem_or_eq_of_mem_set ht with hold | rfl
    · exact Or.inl hold
    · refine Or.inr ⟨?_, ?_⟩
      · intro heq
        cases heq
      · intro result heq
        cases heq
  | send htask => exact h.send hsound htask
  | sent htask =>
    refine h.setRecording ⟨sendResult_safe _, iff_of_true ?_ ⟨_, rfl⟩⟩ rfl rfl rfl
    exact h.sending _ (List.mem_of_getElem? htask) rfl
  | recorded htask =>
    refine h.finish rfl rfl rfl fun result heq => ?_
    obtain rfl := Ending.recorded.inj heq
    exact h.recording _ (List.mem_of_getElem? htask) _ rfl
  | unrecorded => exact h.finish rfl rfl rfl fun result heq => by cases heq
  | restart d =>
    refine h.quiet rfl (List.forall_mem_nil _) fun k result hk => ?_
    rcases List.mem_append.mp hk with hold | hnew
    · exact Or.inl hold
    · obtain ⟨_, -, heq⟩ := List.mem_map.mp hnew
      cases heq

/-! ### Recordings are recorded endings -/

/-- The result a transaction records, if it records one. -/
def recordingOf : Activity → Option ((UUID × String) × NotificationResult)
  | .complete _ c => c.recorded.map fun result => (c.target, result)
  | _ => none

def recordedOf (p : (UUID × String) × Ending) : Option ((UUID × String) × NotificationResult) :=
  match p.2 with
  | .recorded result => some (p.1, result)
  | _ => none

theorem recordedOf_eq_some {p : (UUID × String) × Ending} {k : UUID × String}
    {result : NotificationResult} :
    recordedOf p = some (k, result) ↔ p = (k, .recorded result) := by
  obtain ⟨k', e⟩ := p
  cases e <;> simp [recordedOf]

theorem Moves.recordings (h : s.Moves m acts s') : s'.ended.filterMap recordedOf =
    s.ended.filterMap recordedOf ++ acts.filterMap recordingOf := by
  have hlost : ∀ (e : Ending), (∀ k, recordedOf (k, e) = none) → ∀ ks : List (UUID × String),
      (ks.map fun k => (k, e)).filterMap recordedOf = [] := by
    intro e he ks
    rw [List.filterMap_map]
    exact List.filterMap_eq_nil_iff.mpr fun k _ => he k
  cases h with
  | @transact a _ hother =>
    have hnone : recordingOf a = none := by
      cases a with
      | complete now c => cases hother
      | _ => rfl
    simp [hnone]
  | @aborted _ r _ rest =>
    have hdropped := hlost .dropped (fun _ => rfl) (rest.map fun n => (r.incidentId, n))
    rw [List.map_map] at hdropped
    show (s.ended ++ _ :: List.map ((fun k => (k, Ending.dropped)) ∘ _) rest).filterMap _ = _
    rw [List.filterMap_append, List.filterMap_cons_none rfl, hdropped]
    rfl
  | restart d => simp [hlost .lost fun _ => rfl]
  | terminal => simp [recordedOf, recordingOf, Completion.recorded, Completion.target]
  | recorded =>
    simp [finish, recordedOf, recordingOf, Completion.recorded, Completion.target,
      NotifyTask.target]
  | returned => simp [finish, recordDelivery, recordedOf]
  | unloaded | unrecorded => simp [raise, finish, recordedOf]
  | _ => exact (List.append_nil _).symm

theorem keys_sublist (ended : List ((UUID × String) × Ending)) :
    ((ended.filterMap recordedOf).map Prod.fst).Sublist (ended.map Prod.fst) := by
  induction ended with
  | nil => exact List.Sublist.slnil
  | cons p ended ih =>
    cases h : recordedOf p with
    | none =>
      rw [List.filterMap_cons_none h]
      exact ih.cons _
    | some q =>
      obtain rfl := recordedOf_eq_some.mp h
      rw [List.filterMap_cons_some h]
      exact ih.cons_cons _

/-- The recordings of the log are the recorded endings. -/
def Booked (s : Pipeline) (l : List (PipelineMove × List Activity)) : Prop :=
  (transactionsOf l).filterMap recordingOf = s.ended.filterMap recordedOf

theorem Booked.step (h : s.Booked l) (hmove : s.Moves m acts s') :
    s'.Booked (l ++ [(m, acts)]) := by
  unfold Booked at h ⊢
  rw [transactionsOf_concat, List.filterMap_append, h, hmove.recordings]

end Pipeline

open Pipeline

theorem pipelineAfter_honest (d : NotificationDispatcher) (moves : List PipelineMove) :
    (pipelineAfter d moves).Honest ∧ (pipelineAfter d moves).Booked (pipelineLog d moves) := by
  have hstart : Honest ⟨⟨⟨[], []⟩, []⟩, d, [], [], {}, [], []⟩ :=
    ⟨List.forall_mem_nil _, List.forall_mem_nil _, fun k result hk => absurd hk List.not_mem_nil⟩
  have hsound := pipelineAfter_sound d moves
  suffices h : (pipelineAfter d moves).Sound (pipelineLog d moves) ∧ (pipelineAfter d moves).Honest ∧
      (pipelineAfter d moves).Booked (pipelineLog d moves) from h.2
  refine run_induction (R := fun l (s : Pipeline) => s.Sound l ∧ s.Honest ∧ s.Booked l)
    ⟨pipelineAfter_sound d [], hstart, rfl⟩ ?_ moves
  rintro before m s' acts ⟨hsound, hhonest, hbooked⟩ hstep
  have hmove := step_moves hstep
  exact ⟨hsound.step hmove, hhonest.step hsound hmove, hbooked.step hmove⟩

theorem recordsFor_iff {id : UUID} {pluginName : String} {a : Activity} :
    RecordsFor id pluginName (a, ()) ↔ ∃ result, recordingOf a = some ((id, pluginName), result) := by
  constructor
  · rintro ⟨now, c, result, rfl, htarget, hrecorded⟩
    exact ⟨result, by simp [recordingOf, htarget, hrecorded]⟩
  · rintro ⟨result, h⟩
    cases a with
    | complete now c =>
      obtain ⟨_, hrecorded, heq⟩ := Option.map_eq_some_iff.mp h
      obtain ⟨htarget, rfl⟩ := Prod.mk.inj heq
      exact ⟨now, c, _, rfl, htarget, hrecorded⟩
    | _ => cases h

theorem records_iff {id : UUID} {record : NotificationDeliveryRecord} {a : Activity} :
    Records id record (a, ()) ↔ ∃ result,
      recordingOf a = some ((id, record.pluginName.val), result) ∧
        record.result = safeDeliveryResult result := by
  constructor
  · rintro ⟨now, c, result, rfl, htarget, hrecorded, hresult⟩
    exact ⟨result, by simp [recordingOf, htarget, hrecorded], hresult⟩
  · rintro ⟨result, h, hresult⟩
    cases a with
    | complete now c =>
      obtain ⟨_, hrecorded, heq⟩ := Option.map_eq_some_iff.mp h
      obtain ⟨htarget, rfl⟩ := Prod.mk.inj heq
      exact ⟨now, c, _, rfl, htarget, hrecorded, hresult⟩
    | _ => cases h

/-- A recorded ending is the latest record of its delivery. -/
theorem Pipeline.latest_iff {s : Pipeline} {l : List (PipelineMove × List Activity)} (hsound : s.Sound l)
    (hhonest : s.Honest) (hbooked : s.Booked l) {id : UUID} {record : NotificationDeliveryRecord} :
    Latest (transactions (transactionsOf l)) id record ↔
      ((id, record.pluginName.val), .recorded record.result) ∈ s.ended := by
  have hmem : ∀ k result, (k, result) ∈ (transactionsOf l).filterMap recordingOf ↔
      (k, .recorded result) ∈ s.ended := by
    intro k result
    rw [show (transactionsOf l).filterMap recordingOf = _ from hbooked, List.mem_filterMap]
    simp only [recordedOf_eq_some, exists_eq_right]
  rw [hsound.refines.committed]
  constructor
  · rintro ⟨before, c, after, heq, hrecords, -⟩
    obtain ⟨a, ha, rfl⟩ : ∃ a ∈ transactionsOf l, (a, ()) = c := by
      refine List.mem_map.mp ?_
      rw [heq]
      exact List.mem_append_right _ List.mem_cons_self
    obtain ⟨result, hrecording, hresult⟩ := records_iff.mp hrecords
    have hended := (hmem _ _).mp (List.mem_filterMap.mpr ⟨a, ha, hrecording⟩)
    rw [hresult, (hhonest.recorded _ _ hended).safe]
    exact hended
  · intro hended
    have honce := (hsound.conserved.within.once hsound.once).2.1
    have hkeys : (((transactionsOf l).filterMap recordingOf).map Prod.fst).Nodup := by
      rw [show (transactionsOf l).filterMap recordingOf = _ from hbooked]
      refine honce.sublist (keys_sublist _)
    obtain ⟨before, a, after, heq, hadds, hlater⟩ :=
      heldAfter_of_filterMap hkeys ((hmem _ _).mpr hended)
    refine ⟨before.map fun a => (a, ()), (a, ()), after.map fun a => (a, ()), ?_, ?_, ?_⟩
    · rw [heq, List.map_append, List.map_cons]
    · exact records_iff.mpr ⟨_, hadds, ((hhonest.recorded _ _ hended).safe).symm⟩
    · intro c hc hfor
      obtain ⟨a', ha', rfl⟩ := List.mem_map.mp hc
      exact hlater a' ha' (recordsFor_iff.mp hfor)

section

variable (d : NotificationDispatcher) (moves : List PipelineMove)

/-- The records of the incidents are recorded endings. -/
theorem pipelineAfter_records {r : Incident}
    (hr : r ∈ (pipelineAfter d moves).world.database.incidents) (record : NotificationDeliveryRecord) :
    record ∈ r.deliveries ↔
      ((r.id, record.pluginName.val), .recorded record.result) ∈ (pipelineAfter d moves).ended := by
  have hsound := pipelineAfter_sound d moves
  obtain ⟨hhonest, hbooked⟩ := pipelineAfter_honest d moves
  have hledger := worldAfter_ledger (transactionsOf (pipelineLog d moves))
  rw [← hsound.refines.world] at hledger
  exact (hledger.latest r hr record).trans (latest_iff hsound hhonest hbooked)

/-- A recorded ending stands in its incident. -/
theorem pipelineAfter_shown {k : UUID × String} {result : NotificationResult}
    (hk : (k, .recorded result) ∈ (pipelineAfter d moves).ended) :
    ∃ r ∈ (pipelineAfter d moves).world.database.incidents, r.id = k.1 ∧
      ∃ record ∈ r.deliveries, record.pluginName.val = k.2 ∧ record.result = result := by
  have hsound := pipelineAfter_sound d moves
  have hdue := hsound.due_of_ended hk
  have hplanned := worldAfter_planned (transactionsOf (pipelineLog d moves))
  rw [← hsound.refines.world] at hplanned
  obtain ⟨r, hr, hid, -⟩ := hplanned.crossed _ hdue
  refine ⟨r, hr, hid, ⟨⟨k.2, hplanned.bounded _ hdue⟩, result⟩, ?_, rfl, rfl⟩
  refine (pipelineAfter_records d moves hr _).mpr ?_
  rw [hid]
  exact hk

/-- **Read-out**: after any run, the delivery records of the incidents are the recorded endings, all
of them, and a recorded result is that of a call of the plugin exactly for what was sent. -/
theorem incidents_tell_deliveries :
    (∀ r ∈ (pipelineAfter d moves).world.database.incidents, ∀ record, record ∈ r.deliveries ↔
      ((r.id, record.pluginName.val), .recorded record.result) ∈ (pipelineAfter d moves).ended) ∧
    (∀ k result, (k, .recorded result) ∈ (pipelineAfter d moves).ended →
      ∃ r ∈ (pipelineAfter d moves).world.database.incidents, r.id = k.1 ∧
        ∃ record ∈ r.deliveries, record.pluginName.val = k.2 ∧ record.result = result) ∧
    ∀ k result, (k, .recorded result) ∈ (pipelineAfter d moves).ended →
      ((∃ p ∈ (pipelineAfter d moves).sends, p.1.target = k) ↔
        ∃ sends, result = sendResult sends) := by
  obtain ⟨hhonest, -⟩ := pipelineAfter_honest d moves
  exact ⟨fun r hr => pipelineAfter_records d moves hr, fun k result => pipelineAfter_shown d moves,
    fun k result hk => (hhonest.recorded k result hk).sent⟩

end

end Correlia
