import Correlia.AuditTrail
import Correlia.Membership
import Correlia.Processing.NotificationDispatcher

/-!
# Service — everything that writes, interleaved

A step is one committed transaction: that of a webhook call, an acknowledgement, a close, a sweep, or
the recording of a delivery.  Each locks the rows it reads before it writes them, so transactions of
concurrent requests follow one another in some order, and every order is a run.  `due` holds the
deliveries planned so far, each an incident with a plugin; only these are ever recorded, at any time
after and any number of times.
-/

namespace Correlia

open Lib

/-- The database, and the deliveries planned by committed decisions. -/
structure World where
  database : Database
  due : List (UUID × String)

/-- What a planned delivery ends in. -/
inductive Completion
  /-- A result recorded by the request itself. -/
  | terminal (incidentId : UUID) (pluginName : String) (result : NotificationResult)
  /-- A task that the dispatcher has processed. -/
  | delivery (d : NotificationDispatcher) (task : NotifyTask) (found sends : Bool)

def Completion.target : Completion → UUID × String
  | terminal incidentId pluginName _ => (incidentId, pluginName)
  | delivery _ task _ _ => (task.incidentId, task.pluginName)

/-- The result that is recorded, if one is. -/
def Completion.recorded : Completion → Option NotificationResult
  | terminal _ _ result => some result
  | delivery d task found sends =>
    if (d.process task found sends).2 then some (d.process task found sends).1 else none

inductive Activity
  | ingress (call : PayloadCall)
  | acknowledge (now : Timestamptz) (id : UUID) (request : IncidentAckRequest)
  | close (now : Timestamptz) (id : UUID) (request : IncidentCloseRequest)
  | expire (now : Timestamptz) (locked : List UUID) (limit : ℤ)
  | complete (now : Timestamptz) (completion : Completion)

def vigiloClose : IncidentCloseRequest := ⟨⟨"vigilo-compat", "vigilo-compat"⟩, by decide⟩

/-- Why a transaction leaves nothing. -/
inductive Refusal
  | rolledBack
  | failed (e : OpError)
  | notDue

def World.withIncidents (w : World) (t : List Incident) : World :=
  { w with database := { w.database with incidents := t } }

/-- A transaction on the incidents table. -/
def World.write {α : Type} (w : World)
    (call : List Incident → Except OpError (List Incident × α)) : Except Refusal (World × Unit) :=
  match call w.database.incidents with
  | .ok (t, _) => .ok (w.withIncidents t, ())
  | .error e => .error (.failed e)

/-- One transaction. -/
def serve : Activity → World → Except Refusal (World × Unit)
  | .ingress call, w =>
    match call.commit w.database with
    | some k => .ok (⟨k.after, w.due ++ k.effect.planned⟩, ())
    | none => .error .rolledBack
  | .acknowledge now id request, w => w.write (ackOpenIncident now id request.val.operator)
  | .close now id request, w =>
    w.write (closeOpenIncident now id request.val.operator request.val.reason)
  | .expire now locked limit, w => w.write (expireStaleIncidents now locked limit)
  | .complete now completion, w =>
    if completion.target ∈ w.due then
      match completion.recorded with
      | some result =>
        w.write (recordNotificationResult now completion.target.1 completion.target.2 result)
      | none => .ok (w, ())
    else .error .notDue

/-- The world after a run from the empty one. -/
def worldAfter (acts : List Activity) : World := run serve ⟨⟨[], []⟩, []⟩ acts

/-- The transactions of a run that committed. -/
def transactions (acts : List Activity) : List (Activity × Unit) := log serve ⟨⟨[], []⟩, []⟩ acts

/-- Run induction on the service. -/
theorem service_induction {R : List (Activity × Unit) → World → Prop} (h0 : R [] ⟨⟨[], []⟩, []⟩)
    (hstep : ∀ before a w' o, R (transactions before) (worldAfter before) →
      serve a (worldAfter before) = .ok (w', o) → R (transactions before ++ [(a, o)]) w')
    (acts : List Activity) : R (transactions acts) (worldAfter acts) := run_induction h0 hstep acts

/-! ### The service as a store -/

/-- The calls of the service on the incidents table. -/
def Op.Admitted : Op → Prop
  | .recordProblem .. => False
  | .ack _ _ operator => ∃ request : IncidentAckRequest, operator = request.val.operator
  | _ => True

/-- A call that neither brings delivery records along nor records one. -/
def Op.Silent : Op → Prop
  | .recordProblem .. => False
  | .recordNotification .. => False
  | _ => True

/-- The calls of an event's transaction. -/
def Op.OfEvent : Op → Prop
  | .applyProblem .. => True
  | .hostRecovery .. => True
  | .serviceRecovery .. => True
  | _ => False

theorem Op.OfEvent.admitted {op : Op} (h : op.OfEvent) : op.Admitted := by
  cases op <;> first | exact h | trivial

theorem Op.OfEvent.silent {op : Op} (h : op.OfEvent) : op.Silent := by
  cases op <;> first | exact h | trivial

section

variable {w w' : World} {α : Type}

theorem World.write_eq_ok {call : List Incident → Except OpError (List Incident × α)}
    (h : w.write call = .ok (w', ())) :
    ∃ t a, call w.database.incidents = .ok (t, a) ∧ w' = w.withIncidents t := by
  unfold World.write at h
  split at h
  · rename_i t a hcall
    cases h
    exact ⟨t, a, hcall, rfl⟩
  · cases h

theorem serve_ingress {call : PayloadCall} {o : Unit} (h : serve (.ingress call) w = .ok (w', o)) :
    ∃ k, call.commit w.database = some k ∧ w' = ⟨k.after, w.due ++ k.effect.planned⟩ := by
  change (match call.commit w.database with
    | some k => .ok (⟨k.after, w.due ++ k.effect.planned⟩, ())
    | none => .error .rolledBack : Except Refusal (World × Unit)) = .ok (w', o) at h
  split at h
  · rename_i k hcommit
    cases h
    exact ⟨k, hcommit, rfl⟩
  · cases h

theorem serve_complete {now : Timestamptz} {c : Completion} {o : Unit}
    (h : serve (.complete now c) w = .ok (w', o)) :
    c.target ∈ w.due ∧ ((c.recorded = none ∧ w' = w) ∨ ∃ result t found, c.recorded = some result ∧
      recordNotificationResult now c.target.1 c.target.2 result w.database.incidents =
        .ok (t, found) ∧ w' = w.withIncidents t) := by
  unfold serve at h
  dsimp only at h
  split_ifs at h with hdue
  refine ⟨hdue, ?_⟩
  split at h
  · rename_i result hrecorded
    obtain ⟨t, found, hcall, rfl⟩ := World.write_eq_ok h
    exact Or.inr ⟨result, t, found, hrecorded, hcall, rfl⟩
  · rename_i hrecorded
    cases h
    exact Or.inl ⟨hrecorded, rfl⟩

/-- The commit of an event is one call on the incidents table, or leaves it alone. -/
theorem Icinga2DecisionProcessor.Committed.event_op {p : Icinga2DecisionProcessor}
    {req : IngressRequest} {a : AcceptedEvent} {db db' : Database} {effect : Effect} {decision : Option Decision}
    (h : Committed p req a db db' effect decision) :
    db'.incidents = db.incidents ∨
      ∃ op o, op.OfEvent ∧ step op db.incidents = .ok (db'.incidents, o) := by
  have happlied := h.applied
  unfold Icinga2DecisionProcessor.applyEvent at happlied
  split at happlied
  · rename_i decision _ _
    obtain ⟨⟨t', result⟩, happly, happlied⟩ := bind_eq_ok.mp happlied
    cases happlied
    exact Or.inr ⟨.applyProblem req.now req.incidentId p.configHash a.event decision, _, trivial,
      answer_eq_ok.mpr ⟨result, happly, rfl⟩⟩
  · rename_i htype
    obtain ⟨⟨t', result⟩, hresolve, happlied⟩ := bind_eq_ok.mp happlied
    cases happlied
    have htable := resolveForEvent_table req.now htype db.incidents
    rw [hresolve] at htable
    cases hstep : step (recoveryOp req.now a.event) db.incidents with
    | error e =>
      rw [hstep] at htable
      cases htable
    | ok r =>
      rw [hstep] at htable
      have hrows : db'.incidents = r.1 := Except.ok.inj htable
      refine Or.inr ⟨recoveryOp req.now a.event, r.2, ?_, hstep.trans (by rw [hrows])⟩
      unfold recoveryOp
      cases a.event.val.service <;> trivial
  · exact Or.inl (congrArg Prod.fst (Except.ok.inj happlied)).symm

/-- A commit of the service is one call on the incidents table, or leaves it alone. -/
theorem Icinga2DecisionProcessor.Committed.op {p : Icinga2DecisionProcessor}
    {req : IngressRequest} {a : AcceptedEvent} {db db' : Database} {effect : Effect} {decision : Option Decision}
    (h : Committed p req a db db' effect decision) :
    db'.incidents = db.incidents ∨
      ∃ op o, op.Admitted ∧ op.Silent ∧ step op db.incidents = .ok (db'.incidents, o) := by
  refine h.event_op.imp_right ?_
  rintro ⟨op, o, hevent, hstep⟩
  exact ⟨op, o, hevent.admitted, hevent.silent, hstep⟩

/-- One step of the service is one call on the incidents table, or leaves it alone. -/
theorem serve_op {a : Activity} {o : Unit} (h : serve a w = .ok (w', o)) :
    w'.database.incidents = w.database.incidents ∨ ∃ op o, op.Admitted ∧
      (op.Silent ∨ ∃ now c, a = .complete now c) ∧
      step op w.database.incidents = .ok (w'.database.incidents, o) := by
  cases a with
  | ingress call =>
    obtain ⟨k, hcommit, rfl⟩ := serve_ingress h
    obtain ⟨decision, -, -, hcommitted, -⟩ := call.commit_eq_some hcommit
    refine hcommitted.op.imp_right ?_
    rintro ⟨op, o, hadmitted, hsilent, hstep⟩
    exact ⟨op, o, hadmitted, Or.inl hsilent, hstep⟩
  | acknowledge now id request =>
    obtain ⟨t, result, hcall, rfl⟩ := World.write_eq_ok h
    exact Or.inr ⟨.ack now id request.val.operator, _, ⟨request, rfl⟩, Or.inl trivial,
      answer_eq_ok.mpr ⟨result, hcall, rfl⟩⟩
  | close now id request =>
    obtain ⟨t, result, hcall, rfl⟩ := World.write_eq_ok h
    exact Or.inr ⟨.close now id request.val.operator request.val.reason, _, trivial, Or.inl trivial,
      answer_eq_ok.mpr ⟨result, hcall, rfl⟩⟩
  | expire now locked limit =>
    obtain ⟨t, result, hcall, rfl⟩ := World.write_eq_ok h
    exact Or.inr ⟨.expire now locked limit, _, trivial, Or.inl trivial, answer_eq_ok.mpr ⟨result, hcall, rfl⟩⟩
  | complete now completion =>
    obtain ⟨-, ⟨-, rfl⟩ | ⟨result, t, found, -, hcall, rfl⟩⟩ := serve_complete h
    · exact Or.inl rfl
    · exact Or.inr ⟨.recordNotification now completion.target.1 completion.target.2 result, _, trivial,
        Or.inr ⟨now, completion, rfl⟩, answer_eq_ok.mpr ⟨found, hcall, rfl⟩⟩

end

/-- The incidents table is one that calls of the store leave. -/
def World.Stored (w : World) : Prop :=
  ∃ ops, (∀ op ∈ ops, op.Admitted) ∧ w.database.incidents = tableAfter ops

/-- **The service refines the store.** -/
theorem worldAfter_stored (acts : List Activity) : (worldAfter acts).Stored := by
  have hstart : World.Stored ⟨⟨[], []⟩, []⟩ := ⟨[], List.forall_mem_nil _, rfl⟩
  refine service_induction (R := fun _ w => w.Stored) hstart ?_ acts
  rintro before a w' o ⟨ops, hadmitted, htable⟩ h
  rcases serve_op h with hsame | ⟨op, answer, hop, -, hstep⟩
  · exact ⟨ops, hadmitted, hsame.trans htable⟩
  · rw [htable] at hstep
    refine ⟨ops ++ [op], ?_, (run_concat_ok hstep).1.symm⟩
    exact List.forall_mem_append.mpr ⟨hadmitted, List.forall_mem_singleton.mpr hop⟩

/-! ### A call as a run -/

theorem serve_ingress_of_commit {call : PayloadCall} {w : World} {k : Commit}
    (h : call.commit w.database = some k) :
    serve (.ingress call) w = .ok (⟨k.after, w.due ++ k.effect.planned⟩, ()) := by
  show (match call.commit w.database with
    | some k => .ok (⟨k.after, w.due ++ k.effect.planned⟩, ())
    | none => .error .rolledBack : Except Refusal (World × Unit)) = _
  rw [h]

theorem serve_terminal {now : Timestamptz} {id : UUID} {pluginName : String}
    {result : NotificationResult} {w : World} {t : List Incident} {found : Bool}
    (hdue : (id, pluginName) ∈ w.due)
    (h : recordNotificationResult now id pluginName result w.database.incidents = .ok (t, found)) :
    serve (.complete now (.terminal id pluginName result)) w = .ok (w.withIncidents t, ()) := by
  show (if (id, pluginName) ∈ w.due then
    w.write (recordNotificationResult now id pluginName result) else .error .notDue) = _
  rw [if_pos hdue, World.write, h]

/-- **A call is a run**: what `process_payload` does from its commit on is its transaction, followed
by recordings of deliveries it has planned. -/
theorem PayloadCall.outcome_run (c : PayloadCall) {w : World} {k : Commit}
    (h : c.commit w.database = some k) : ∃ acts : List Activity,
      (∀ a ∈ acts, ∃ id pluginName result, (id, pluginName) ∈ k.effect.planned ∧
        a = .complete c.request.now (.terminal id pluginName result)) ∧
      (c.outcome w.database).database = (run serve w (.ingress c :: acts)).database := by
  obtain ⟨decision, -, -, -, houtcome⟩ := c.commit_eq_some h
  suffices hrun : ∃ acts : List Activity,
      (∀ a ∈ acts, ∃ id pluginName result, (id, pluginName) ∈ k.effect.planned ∧
        a = .complete c.request.now (.terminal id pluginName result)) ∧
      run serve w (.ingress c :: acts) =
        ⟨(c.outcome w.database).database, w.due ++ k.effect.planned⟩ by
    obtain ⟨acts, hacts, hworld⟩ := hrun
    exact ⟨acts, hacts, by rw [hworld]⟩
  rw [houtcome]
  refine Icinga2DecisionProcessor.afterTransaction_keeps (P := fun d => ∃ acts : List Activity,
      (∀ a ∈ acts, ∃ id pluginName result, (id, pluginName) ∈ k.effect.planned ∧
        a = .complete c.request.now (.terminal id pluginName result)) ∧
      run serve w (.ingress c :: acts) = ⟨d, w.due ++ k.effect.planned⟩) ?_ ?_
  · have hserve : serve (.ingress c) (run serve w []) =
        .ok (⟨k.after, w.due ++ k.effect.planned⟩, ()) := serve_ingress_of_commit h
    exact ⟨[], List.forall_mem_nil _, (run_concat_ok hserve).1⟩
  · rintro id pluginName hplanned result d t found ⟨acts, hacts, hworld⟩ hrecord
    refine ⟨acts ++ [.complete c.request.now (.terminal id pluginName result)], ?_, ?_⟩
    · exact List.forall_mem_append.mpr ⟨hacts, List.forall_mem_singleton.mpr
        ⟨id, pluginName, result, hplanned, rfl⟩⟩
    · have hserve := serve_terminal (w := ⟨d, w.due ++ k.effect.planned⟩)
        (List.mem_append_right _ hplanned) hrecord
      rw [← hworld] at hserve
      refine (run_concat_ok hserve).1.trans ?_
      rw [hworld]
      rfl

end Correlia
