import Correlia.Lib.Serial
import Correlia.Lifetimes

/-!
# RowLocks — acknowledgements, closes and delivery results at READ COMMITTED

These calls lock the one row they write: a select `FOR UPDATE` (its snapshot, then the lock with the
WHERE clause evaluated again), and the update on the row as it was locked, with the commit.  Any number
of them run at once, statement by statement, beside other transactions.  Their ends, in order, are a
serial run of the calls as the rest of the development has them.
-/

namespace Correlia

open Lib

inductive RowCall
  | ack (now : Timestamptz) (id : UUID) (operator : String)
  | close (now : Timestamptz) (id : UUID) (operator reason : String)
  | record (now : Timestamptz) (id : UUID) (pluginName : String) (result : NotificationResult)

namespace RowCall

/-- The call in one step. -/
def op : RowCall → Op
  | ack now id operator => .ack now id operator
  | close now id operator reason => .close now id operator reason
  | record now id pluginName result => .recordNotification now id pluginName result

def id : RowCall → UUID
  | ack _ id _ => id
  | close _ id _ _ => id
  | record _ id _ _ => id

/-- The WHERE clause of its locking select. -/
def selects : RowCall → Incident → Bool
  | ack _ id _ => openWithId id
  | close _ id _ _ => openWithId id
  | record _ id _ _ => fun r => decide (r.id = id)

/-- After an empty select it looks at the row once more: a result for no incident is dropped. -/
def rereads : RowCall → Bool
  | record .. => false
  | _ => true

/-- The rest of the call, on the row it has locked. -/
def onRow (incident : Incident) (t : List Incident) :
    RowCall → Except OpError (List Incident × Answer)
  | ack now id operator => answer .operated do
    let counts := activeObjectCounts incident.windowState.val.activeObjects
    let context ← lifecycleContext incident
      { reason := "acknowledged", operator := some operator,
        previousHostCount := counts.1, previousServiceCount := counts.2 }
    textParams [operator]
    let (t', updated) ← updateOne (openWithId id) (acknowledgedIncident now operator context) t
    return (t', some ⟨updated, .acknowledged, none, counts.1, counts.2, false⟩)
  | close now id operator reason => answer .operated do
    let counts := activeObjectCounts incident.windowState.val.activeObjects
    let context ← lifecycleContext incident
      { reason := "manual_close", operator := some operator, detail := some reason,
        previousHostCount := counts.1, previousServiceCount := counts.2 }
    let target ← liftError .value (validateIncidentTransition .«open» .closed)
    textParams [takeText noteTextMax operator, takeText noteTextMax reason]
    let (t', updated) ← updateOne (openWithId id) (closedIncident now target context) t
    return (t', some ⟨updated, .closed, some .closed, counts.1, counts.2, false⟩)
  | record now id pluginName result => answer .notified do
    let context ← validatedNotificationContext incident.decisionContext pluginName result
    let values (r : Incident) : Incident := { r with
      decisionContext := context
      updatedAt := now
      notifiedAt := if result.success then some now else r.notifiedAt }
    return (updateWhere (fun r => decide (r.id = id)) values t, true)

end RowCall

/-- How far a call has come. -/
inductive RowStage
  | start
  /-- The select has seen the row, and waits for its lock. -/
  | waiting
  /-- The select has come back empty. -/
  | missed
  | locked (incident : Incident)
  | ended (result : Except OpError Answer)

/-- A call in its own session. -/
structure RowSession where
  call : RowCall
  stage : RowStage := .start

/-- What a statement leaves: the table, the stage, and the call with its result if that was its last. -/
structure Statement where
  table : List Incident
  stage : RowStage
  ended : Option (Op × Except OpError Answer)

namespace RowSession

variable (x : RowSession) (t : List Incident)

/-- The call ends. -/
def finish (t' : List Incident) (result : Except OpError Answer) : Statement :=
  ⟨t', .ended result, some (x.call.op, result)⟩

def afterMiss : Statement :=
  if x.call.rereads then ⟨t, .missed, none⟩ else x.finish t (.ok (.notified false))

/-- The next statement. -/
def statement : Statement :=
  match x.stage with
  | .start => if t.any x.call.selects then ⟨t, .waiting, none⟩ else x.afterMiss t
  | .waiting =>
    match oneOrNone (t.filter x.call.selects) with
    | .ok (some incident) => ⟨t, .locked incident, none⟩
    | .ok none => x.afterMiss t
    | .error e => x.finish t (.error e)
  | .missed => x.finish t ((noopResult x.call.id t).map .operated)
  | .locked incident =>
    match x.call.onRow incident t with
    | .ok (t', result) => x.finish t' (.ok result)
    | .error e => x.finish t (.error e)
  | .ended result => ⟨t, .ended result, none⟩

/-- The session has locked the row. -/
def Holds (id : UUID) : Prop := ∃ incident, x.stage = .locked incident ∧ incident.id = id

/-- The call has not ended. -/
def Running : Prop := ∀ result, x.stage ≠ .ended result

end RowSession

structure RowSessions where
  table : List Incident
  sessions : List RowSession := []

/-- A session that waits is let through when no other one holds the row. -/
def RowSessions.Free (s : RowSessions) (x : RowSession) : Prop :=
  x.stage = .waiting → ∀ y ∈ s.sessions, ¬y.Holds x.call.id

/-- One move: a call begins, a session executes its next statement, or another transaction commits,
which leaves locked rows alone and draws no id that was asked for. -/
inductive SessionMove : RowSessions → Option (Op × Except OpError Answer) → RowSessions → Prop
  | begins (s : RowSessions) (c : RowCall) :
      SessionMove s none ⟨s.table, s.sessions ++ [⟨c, .start⟩]⟩
  | own {s : RowSessions} {n : ℕ} {x : RowSession} {e : Option (Op × Except OpError Answer)}
      (hx : s.sessions[n]? = some x) (hrunning : x.Running) (hfree : s.Free x)
      (he : (x.statement s.table).ended = e) :
      SessionMove s e
        ⟨(x.statement s.table).table, s.sessions.set n ⟨x.call, (x.statement s.table).stage⟩⟩
  | other {s : RowSessions} {op : Op} {t' : List Incident} {o : Answer}
      (h : step op s.table = .ok (t', o))
      (hlocks : ∀ y ∈ s.sessions, ∀ incident, y.stage = .locked incident → incident ∈ t')
      (hdrawn : ∀ r ∈ t', r.id ∈ s.table.map Incident.id ∨ ∀ y ∈ s.sessions, y.call.id ≠ r.id) :
      SessionMove s (some (op, .ok o)) ⟨t', s.sessions⟩

/-! ### What a statement does -/

/-- The call has nothing to select. -/
def RowCall.Misses (c : RowCall) (t : List Incident) : Prop := ∀ r ∈ t, c.selects r = false

namespace RowCall

variable {c : RowCall} {t : List Incident} {r r' : Incident}

theorem selects_id (h : c.selects r = true) : r.id = c.id := by
  cases c with
  | record => exact of_decide_eq_true h
  | _ => exact (openWithId_iff.mp h).1

theorem op_problem (c : RowCall) : c.op.problem = none := by
  cases c <;> rfl

/-- What a row is selected for after a change, it was selected for before. -/
theorem selects_before {op : Op} (h : RowChange op r r') (hselects : c.selects r' = true) :
    c.selects r = true := by
  have hopen : ∀ id, openWithId id r' = true → openWithId id r = true := by
    intro id hr'
    obtain ⟨hid, hstatus⟩ := openWithId_iff.mp hr'
    refine openWithId_iff.mpr ⟨h.id_eq.symm.trans hid, ?_⟩
    rcases h.later.status with hsame | ⟨hr, -⟩
    · exact hsame.symm.trans hstatus
    · exact hr
  cases c with
  | record =>
    have hid := selects_id hselects
    exact decide_eq_true (h.id_eq.symm.trans hid)
  | _ => exact hopen _ hselects

/-- The call changes the row of its id alone. -/
theorem change_same (h : RowChange c.op r r') (hid : r.id ≠ c.id) : r' = r := by
  cases h with
  | same => rfl
  | merged hop =>
    rw [c.op_problem] at hop
    cases hop
  | recovered hop => cases c <;> cases hop
  | acknowledged hop =>
    cases c <;> cases hop
    exact absurd rfl hid
  | closed hop =>
    rcases hop with ⟨operator, reason, hop⟩ | ⟨locked, n, hop⟩
    · cases c <;> cases hop
      exact absurd rfl hid
    · cases c <;> cases hop
  | notified hop =>
    cases c <;> cases hop
    exact absurd rfl hid

/-- On a row it selects, the call in one step is the rest of the call. -/
theorem step_onRow (ht : (t.map Incident.id).Nodup) (hr : r ∈ t) (hselects : c.selects r = true) :
    step c.op t = c.onRow r t := by
  cases c with
  | ack now id operator =>
    obtain ⟨rfl, hopen⟩ := openWithId_iff.mp hselects
    refine congrArg (answer .operated) ?_
    unfold ackOpenIncident
    rw [filter_openWithId ht hr hopen]
    rfl
  | close now id operator reason =>
    obtain ⟨rfl, hopen⟩ := openWithId_iff.mp hselects
    refine congrArg (answer .operated) ?_
    unfold closeOpenIncident
    rw [filter_openWithId ht hr hopen]
    rfl
  | record now id pluginName result =>
    obtain rfl := of_decide_eq_true hselects
    have hfilter : t.filter (fun x => decide (x.id = r.id)) = [r] := by
      simpa only [Bool.and_true] using filter_key ht hr (g := fun _ => true) rfl
    refine congrArg (answer .notified) ?_
    unfold recordNotificationResult
    rw [hfilter]

/-- With no row to select, the call in one step leaves the table as it is. -/
theorem step_missed (h : c.Misses t) : step c.op t =
    (if c.rereads then (noopResult c.id t).map .operated else .ok (.notified false)).map
      fun o => (t, o) := by
  have hnone : t.filter c.selects = [] := by
    refine List.filter_eq_nil_iff.mpr fun r hr => ?_
    rw [h r hr]
    exact Bool.false_ne_true
  cases c with
  | ack now id operator =>
    show answer .operated (ackOpenIncident now id operator t) = _
    unfold ackOpenIncident
    rw [show t.filter (openWithId id) = [] from hnone]
    show answer .operated ((noopResult id t).map _) = ((noopResult id t).map _).map _
    cases noopResult id t <;> rfl
  | close now id operator reason =>
    show answer .operated (closeOpenIncident now id operator reason t) = _
    unfold closeOpenIncident
    rw [show t.filter (openWithId id) = [] from hnone]
    show answer .operated ((noopResult id t).map _) = ((noopResult id t).map _).map _
    cases noopResult id t <;> rfl
  | record now id pluginName result =>
    show answer .notified (recordNotificationResult now id pluginName result t) = _
    unfold recordNotificationResult
    rw [show (t.filter fun r => decide (r.id = id)) = [] from hnone]
    rfl

end RowCall

namespace RowSession

/-- What a session can do with its next statement. -/
inductive Does (x : RowSession) (t : List Incident) : Statement → Prop
  | waits : Does x t ⟨t, .waiting, none⟩
  | misses (hmisses : x.call.Misses t) (hrereads : x.call.rereads = true) :
      Does x t ⟨t, .missed, none⟩
  | locks {r : Incident} (hstage : x.stage = .waiting) (hr : r ∈ t)
      (hselects : x.call.selects r = true) : Does x t ⟨t, .locked r, none⟩
  | answers {result : Except OpError Answer} (hstep : step x.call.op t = result.map fun o => (t, o)) :
      Does x t ⟨t, .ended result, some (x.call.op, result)⟩
  | updates {r : Incident} {t' : List Incident} {o : Answer} (hstage : x.stage = .locked r)
      (hstep : step x.call.op t = .ok (t', o)) :
      Does x t ⟨t', .ended (.ok o), some (x.call.op, .ok o)⟩

variable {x : RowSession} {t : List Incident}

theorem does_afterMiss (h : x.call.Misses t) : x.Does t (x.afterMiss t) := by
  unfold afterMiss
  by_cases hrereads : x.call.rereads = true
  · rw [if_pos hrereads]
    exact .misses h hrereads
  · rw [if_neg hrereads]
    refine .answers ?_
    rw [RowCall.step_missed h, if_neg hrereads]

theorem statement_does (ht : (t.map Incident.id).Nodup) (hrunning : x.Running)
    (hheld : ∀ r, x.stage = .locked r → r ∈ t ∧ x.call.selects r = true)
    (hmissed : x.stage = .missed → x.call.Misses t ∧ x.call.rereads = true) :
    x.Does t (x.statement t) := by
  unfold statement
  split
  · split_ifs with hany
    · exact .waits
    · refine does_afterMiss fun r hr => ?_
      rw [Bool.eq_false_iff]
      exact fun hselects => hany (List.any_eq_true.mpr ⟨r, hr, hselects⟩)
  · rename_i hstage
    rcases hfilter : t.filter x.call.selects with _ | ⟨r, _ | ⟨r', rest⟩⟩
    · refine does_afterMiss fun r hr => ?_
      rw [Bool.eq_false_iff]
      exact fun hselects => List.filter_eq_nil_iff.mp hfilter r hr hselects
    · have hmem : r ∈ t.filter x.call.selects := by rw [hfilter]; exact List.mem_singleton_self r
      obtain ⟨hr, hselects⟩ := List.mem_filter.mp hmem
      exact .locks hstage hr hselects
    · -- two rows would have one id
      have hids : ((t.filter x.call.selects).map Incident.id).Nodup :=
        ht.sublist (List.filter_sublist.map _)
      have hsame : r.id = r'.id := by
        have hr : r ∈ t.filter x.call.selects := by simp [hfilter]
        have hr' : r' ∈ t.filter x.call.selects := by simp [hfilter]
        rw [RowCall.selects_id (List.mem_filter.mp hr).2, RowCall.selects_id (List.mem_filter.mp hr').2]
      rw [hfilter, List.map_cons, List.map_cons, hsame] at hids
      exact absurd List.mem_cons_self (List.nodup_cons.mp hids).1
  · rename_i hstage
    obtain ⟨hmisses, hrereads⟩ := hmissed hstage
    refine .answers ?_
    rw [RowCall.step_missed hmisses, if_pos hrereads]
  · rename_i r hstage
    obtain ⟨hr, hselects⟩ := hheld r hstage
    have hstep := RowCall.step_onRow ht hr hselects
    cases honRow : x.call.onRow r t with
    | ok p =>
      obtain ⟨t', o⟩ := p
      exact .updates hstage (hstep.trans honRow)
    | error e => exact .answers (hstep.trans honRow)
  · rename_i result hstage
    exact absurd hstage (hrunning result)

end RowSession

/-! ### The invariant -/

/-- Whoever has locked a row has it as it is in the table, and alone; and who has missed its row will
not find it. -/
structure RowSessions.Sound (s : RowSessions) : Prop where
  ids : (s.table.map Incident.id).Nodup
  held : ∀ x ∈ s.sessions, ∀ r, x.stage = .locked r → r ∈ s.table ∧ x.call.selects r = true
  alone : ∀ (id : UUID) (n m : ℕ) (x y : RowSession), s.sessions[n]? = some x →
    s.sessions[m]? = some y → x.Holds id → y.Holds id → n = m
  missed : ∀ x ∈ s.sessions, x.stage = .missed →
    x.call.Misses s.table ∧ x.call.rereads = true

section

variable {s : RowSessions} {x y a : RowSession} {l : List RowSession} {n m : ℕ}

theorem lookup_set (h : (l.set n a)[m]? = some y) : (m = n ∧ y = a) ∨ (m ≠ n ∧ l[m]? = some y) := by
  by_cases hm : m = n
  · subst hm
    have hlen : m < l.length := by
      have hlen := (List.getElem?_eq_some_iff.mp h).1
      rwa [List.length_set] at hlen
    rw [List.getElem?_set_self hlen] at h
    exact Or.inl ⟨rfl, (Option.some.inj h).symm⟩
  · rw [List.getElem?_set_ne (Ne.symm hm)] at h
    exact Or.inr ⟨hm, h⟩

theorem lookup_concat (h : (l ++ [a])[m]? = some y) : l[m]? = some y ∨ y = a := by
  rcases Nat.lt_or_ge m l.length with hm | hm
  · rw [List.getElem?_append_left hm] at h
    exact Or.inl h
  · rw [List.getElem?_append_right hm] at h
    exact Or.inr (List.mem_singleton.mp (List.mem_of_getElem? h))

theorem holds_locked {id : UUID} (h : x.Holds id) : ∃ r, x.stage = .locked r := by
  obtain ⟨r, hr, -⟩ := h
  exact ⟨r, hr⟩

theorem RowCall.Misses.kept {c : RowCall} {op : Op} {t t' : List Incident} (h : c.Misses t)
    (hrows : List.Forall₂ (RowChange op) t t') : c.Misses t' := by
  intro r' hr'
  obtain ⟨r, hr, hchange⟩ := exists_of_forall₂_right hrows hr'
  rw [Bool.eq_false_iff]
  intro hselects
  have hbefore := RowCall.selects_before hchange hselects
  rw [h r hr] at hbefore
  exact Bool.false_ne_true hbefore

theorem RowSessions.Sound.begins (h : s.Sound) (c : RowCall) :
    RowSessions.Sound ⟨s.table, s.sessions ++ [⟨c, .start⟩]⟩ := by
  refine ⟨h.ids, fun x hx r hr => ?_, fun id n m x y hx hy hxid hyid => ?_, fun x hx hstage => ?_⟩
  · rcases List.mem_append.mp hx with hx | hx
    · exact h.held x hx r hr
    · rw [List.mem_singleton.mp hx] at hr
      cases hr
  · rcases lookup_concat hx with hx | rfl
    · rcases lookup_concat hy with hy | rfl
      · exact h.alone id n m x y hx hy hxid hyid
      · obtain ⟨r, hr⟩ := holds_locked hyid
        cases hr
    · obtain ⟨r, hr⟩ := holds_locked hxid
      cases hr
  · rcases List.mem_append.mp hx with hx | hx
    · exact h.missed x hx hstage
    · rw [List.mem_singleton.mp hx] at hstage
      cases hstage

/-- Another transaction leaves the sessions sound. -/
theorem RowSessions.Sound.other (h : s.Sound) {op : Op} {t' : List Incident} {o : Answer}
    (hstep : step op s.table = .ok (t', o))
    (hlocks : ∀ y ∈ s.sessions, ∀ r, y.stage = .locked r → r ∈ t')
    (hdrawn : ∀ r ∈ t', r.id ∈ s.table.map Incident.id ∨ ∀ y ∈ s.sessions, y.call.id ≠ r.id) :
    RowSessions.Sound ⟨t', s.sessions⟩ := by
  refine ⟨step_ids_nodup h.ids hstep, fun x hx r hr => ⟨hlocks x hx r hr, (h.held x hx r hr).2⟩,
    h.alone, fun x hx hstage => ?_⟩
  obtain ⟨hmisses, hrereads⟩ := h.missed x hx hstage
  refine ⟨?_, hrereads⟩
  rcases step_effect h.ids hstep with hrows | ⟨p, r, -, hfresh, rfl⟩
  · exact hmisses.kept hrows
  · intro r' hr'
    rcases List.mem_append.mp hr' with hold | hnew
    · exact hmisses r' hold
    · -- the fresh row has an id of its own
      obtain rfl := List.mem_singleton.mp hnew
      rw [Bool.eq_false_iff]
      intro hselects
      rcases hdrawn r' hr' with hid | hid
      · obtain ⟨r'', hr'', heq⟩ := List.mem_map.mp hid
        exact hfresh.id_free r'' hr'' (heq.trans hfresh.id_eq)
      · exact hid x hx (RowCall.selects_id hselects).symm

/-- A statement that leaves the table alone, and locks nothing that another session holds. -/
theorem RowSessions.Sound.set (h : s.Sound) {c : RowCall} {stage : RowStage}
    (hheld : ∀ r, stage = .locked r → r ∈ s.table ∧ c.selects r = true)
    (halone : ∀ r, stage = .locked r → ∀ y ∈ s.sessions, ¬y.Holds r.id)
    (hmissed : stage = .missed → c.Misses s.table ∧ c.rereads = true) :
    RowSessions.Sound ⟨s.table, s.sessions.set n ⟨c, stage⟩⟩ := by
  refine ⟨h.ids, fun x hx r hr => ?_, fun id n' m x y hx hy hxid hyid => ?_, fun x hx hstage => ?_⟩
  · rcases List.mem_or_eq_of_mem_set hx with hx | rfl
    · exact h.held x hx r hr
    · exact hheld r hr
  · rcases lookup_set hx with ⟨rfl, rfl⟩ | ⟨hn, hx⟩ <;>
      rcases lookup_set hy with ⟨hm, rfl⟩ | ⟨hm, hy⟩
    · exact hm.symm
    · obtain ⟨r, hr, rfl⟩ := hxid
      exact absurd hyid (halone r hr y (List.mem_of_getElem? hy))
    · obtain ⟨r, hr, rfl⟩ := hyid
      exact absurd hxid (halone r hr x (List.mem_of_getElem? hx))
    · exact h.alone id n' m x y hx hy hxid hyid
  · rcases List.mem_or_eq_of_mem_set hx with hx | rfl
    · exact h.missed x hx hstage
    · exact hmissed hstage

/-- A call that has written its row: the rows of other sessions are as they have locked them. -/
theorem RowSessions.Sound.updates (h : s.Sound) (hx : s.sessions[n]? = some x) {r : Incident}
    (hstage : x.stage = .locked r) {t' : List Incident} {o : Answer}
    (hstep : step x.call.op s.table = .ok (t', o)) :
    RowSessions.Sound ⟨t', s.sessions.set n ⟨x.call, .ended (.ok o)⟩⟩ := by
  have hrows : List.Forall₂ (RowChange x.call.op) s.table t' := by
    rcases step_effect h.ids hstep with hrows | ⟨p, -, hproblem, -⟩
    · exact hrows
    · rw [x.call.op_problem] at hproblem
      cases hproblem
  have hid := RowCall.selects_id (h.held x (List.mem_of_getElem? hx) r hstage).2
  have hkept : ∀ y ∈ s.sessions, y.stage = .missed → y.call.Misses t' ∧ y.call.rereads = true :=
    fun y hy hy' => ⟨(h.missed y hy hy').1.kept hrows, (h.missed y hy hy').2⟩
  refine ⟨step_ids_nodup h.ids hstep, fun y hy r' hr' => ?_, fun id n' m y z hy hz hyid hzid => ?_,
    fun y hy hstage' => ?_⟩
  · obtain ⟨m, hm⟩ := List.mem_iff_getElem?.mp hy
    rcases lookup_set hm with ⟨-, rfl⟩ | ⟨hne, hm⟩
    · cases hr'
    · obtain ⟨hmem, hselects⟩ := h.held y (List.mem_of_getElem? hm) r' hr'
      refine ⟨?_, hselects⟩
      obtain ⟨r'', hr'', hchange⟩ := exists_of_forall₂_left hrows hmem
      have hother : r'.id ≠ x.call.id := by
        intro heq
        exact hne (h.alone x.call.id m n y x hm hx ⟨r', hr', heq⟩ ⟨r, hstage, hid⟩)
      rwa [← RowCall.change_same hchange hother]
  · rcases lookup_set hy with ⟨-, rfl⟩ | ⟨-, hy⟩
    · obtain ⟨r', hr'⟩ := holds_locked hyid
      cases hr'
    · rcases lookup_set hz with ⟨-, rfl⟩ | ⟨-, hz⟩
      · obtain ⟨r', hr'⟩ := holds_locked hzid
        cases hr'
      · exact h.alone id n' m y z hy hz hyid hzid
  · rcases List.mem_or_eq_of_mem_set hy with hy | rfl
    · exact hkept y hy hstage'
    · cases hstage'

/-- What the session executes next is one of the things it can do. -/
theorem RowSessions.Sound.does (h : s.Sound) (hx : x ∈ s.sessions) (hrunning : x.Running) :
    x.Does s.table (x.statement s.table) :=
  RowSession.statement_does h.ids hrunning (h.held x hx) (h.missed x hx)

/-- A statement of a session that is let through keeps the sessions sound. -/
theorem RowSessions.Sound.own (h : s.Sound) (hx : s.sessions[n]? = some x) (hfree : s.Free x)
    {st : Statement} (hst : x.Does s.table st) :
    RowSessions.Sound ⟨st.table, s.sessions.set n ⟨x.call, st.stage⟩⟩ := by
  cases hst with
  | waits =>
    exact h.set (fun r hr => by cases hr) (fun r hr => by cases hr) (fun hm => by cases hm)
  | misses hmisses hrereads =>
    exact h.set (fun r hr => by cases hr) (fun r hr => by cases hr) fun _ => ⟨hmisses, hrereads⟩
  | @locks r hstage hr hselects =>
    refine h.set (fun r' hr' => ?_) (fun r' hr' y hy => ?_) (fun hm => by cases hm)
    · obtain rfl := RowStage.locked.inj hr'
      exact ⟨hr, hselects⟩
    · obtain rfl := RowStage.locked.inj hr'
      rw [RowCall.selects_id hselects]
      exact hfree hstage y hy
  | answers => exact h.set (fun r hr => by cases hr) (fun r hr => by cases hr) (fun hm => by cases hm)
  | updates hstage hstep => exact h.updates hx hstage hstep

/-! ### Serial runs -/

theorem SessionMove.sound {s' : RowSessions} {e : Option (Op × Except OpError Answer)} (h : s.Sound)
    (hmove : SessionMove s e s') : s'.Sound := by
  cases hmove with
  | begins c => exact h.begins c
  | own hx hrunning hfree =>
    exact h.own hx hfree (h.does (List.mem_of_getElem? hx) hrunning)
  | other hstep hlocks hdrawn => exact h.other hstep hlocks hdrawn

theorem run_one_ok {op : Op} {t t' : List Incident} {o : Answer} (h : step op t = .ok (t', o)) :
    run step t [op] = t' :=
  (run_concat_ok (show step op (run step t []) = .ok (t', o) from h)).1

theorem run_one_same {op : Op} {t : List Incident} {result : Except OpError Answer}
    (h : step op t = result.map fun o => (t, o)) : run step t [op] = t := by
  cases result with
  | ok o => exact run_one_ok h
  | error e => exact (run_concat_error (show step op (run step t []) = .error e from h)).1

/-- Every end is the call in one step. -/
theorem sessions_serialize :
    Serializes SessionMove step RowSessions.table RowSessions.Sound where
  keeps := by
    intro s e s' h hmove
    exact hmove.sound h
  quiet := by
    intro s s' h hmove
    generalize he : (none : Option (Op × Except OpError Answer)) = e at hmove
    cases hmove with
    | begins => rfl
    | other => cases he
    | own hx hrunning hfree hended =>
      have hst := h.does (List.mem_of_getElem? hx) hrunning
      rw [← he] at hended
      generalize RowSession.statement _ s.table = st at hst hended
      cases hst with
      | answers => cases hended
      | updates => cases hended
      | _ => rfl
  ends := by
    intro s i result s' h hmove
    generalize he : some (i, result) = e at hmove
    cases hmove with
    | begins => cases he
    | other hstep =>
      cases he
      rw [hstep]
      exact ⟨rfl, (run_one_ok hstep).symm⟩
    | own hx hrunning hfree hended =>
      have hst := h.does (List.mem_of_getElem? hx) hrunning
      rw [← he] at hended
      show _ ∧ (RowSession.statement _ s.table).table = _
      generalize RowSession.statement _ s.table = st at hst hended
      cases hst with
      | answers hstep =>
        cases hended
        refine ⟨?_, (run_one_same hstep).symm⟩
        rw [hstep]
        cases result <;> rfl
      | updates hstage hstep =>
        cases hended
        rw [hstep]
        exact ⟨rfl, (run_one_ok hstep).symm⟩
      | _ => cases hended

/-- A session that has ended was so before, or its result is told now. -/
theorem SessionMove.told {s' : RowSessions} {e : Option (Op × Except OpError Answer)} (h : s.Sound)
    (hmove : SessionMove s e s') {result : Except OpError Answer} (hy : y ∈ s'.sessions)
    (hstage : y.stage = .ended result) : y ∈ s.sessions ∨ e = some (y.call.op, result) := by
  cases hmove with
  | begins c =>
    rcases List.mem_append.mp hy with hy | hy
    · exact Or.inl hy
    · rw [List.mem_singleton.mp hy] at hstage
      cases hstage
  | other => exact Or.inl hy
  | own hx hrunning hfree hended =>
    rcases List.mem_or_eq_of_mem_set hy with hy | rfl
    · exact Or.inl hy
    · have hst := h.does (List.mem_of_getElem? hx) hrunning
      right
      generalize RowSession.statement _ s.table = st at hst hended hstage
      cases hst with
      | answers => rw [← hended, RowStage.ended.inj hstage]
      | updates => rw [← hended, RowStage.ended.inj hstage]
      | _ => cases hstage

end

/-- **Row calls are serial.**  From every table that calls have left, in every interleaving of
acknowledgements, closes and delivery results, statement by statement, and of other transactions: the
table is what the calls that have ended leave when they run one after another, in the order of their
ends; each has the result that it has there; every session that has ended has such a result; and while
a session has not, one of them can go on, so that none waits for another for ever. -/
theorem row_calls_serialize (ops : List Op) (l : List (Op × Except OpError Answer)) (s : RowSessions)
    (h : Trace SessionMove ⟨tableAfter ops, []⟩ l s) :
    s.table = tableAfter (ops ++ l.map Prod.fst) ∧ InTurn step (tableAfter ops) l ∧
    (∀ x ∈ s.sessions, ∀ result, x.stage = .ended result → (x.call.op, result) ∈ l) ∧
    ((∃ x ∈ s.sessions, x.Running) →
      ∃ x ∈ s.sessions, x.Running ∧ s.Free x) := by
  have hstart : RowSessions.Sound ⟨tableAfter ops, []⟩ :=
    ⟨ids_nodup ops, fun x hx => absurd hx List.not_mem_nil,
      fun _ _ _ _ _ hx => absurd (List.mem_of_getElem? hx) List.not_mem_nil,
      fun x hx => absurd hx List.not_mem_nil⟩
  obtain ⟨-, htable, hturn⟩ := sessions_serialize.trace hstart h
  refine ⟨htable.trans (run_append ops _).1.symm, hturn, ?_, ?_⟩
  · refine (h.induction_on (R := fun l s => s.Sound ∧ ∀ x ∈ s.sessions, ∀ result,
      x.stage = .ended result → (x.call.op, result) ∈ l)
      ⟨hstart, fun x hx => absurd hx List.not_mem_nil⟩ ?_ ?_).2
    · rintro l b c ⟨hsound, ih⟩ hmove
      refine ⟨hmove.sound hsound, fun x hx result hstage => ?_⟩
      rcases hmove.told hsound hx hstage with hb | he
      · exact ih x hb result hstage
      · cases he
    · rintro l b e c ⟨hsound, ih⟩ hmove
      refine ⟨hmove.sound hsound, fun x hx result hstage => ?_⟩
      rcases hmove.told hsound hx hstage with hb | he
      · exact List.mem_append_left _ (ih x hb result hstage)
      · rw [Option.some.inj he]
        exact List.mem_append_right _ (List.mem_singleton_self _)
  · rintro ⟨x, hx, hrunning⟩
    by_cases hlocked : ∃ y ∈ s.sessions, ∃ r, y.stage = .locked r
    · obtain ⟨y, hy, r, hr⟩ := hlocked
      refine ⟨y, hy, fun result hend => ?_, fun hwaiting => ?_⟩
      · rw [hr] at hend
        cases hend
      · rw [hr] at hwaiting
        cases hwaiting
    · refine ⟨x, hx, hrunning, fun _ y hy hholds => ?_⟩
      obtain ⟨r, hr⟩ := holds_locked hholds
      exact hlocked ⟨y, hy, r, hr⟩

/-! ### Two calls that meet -/

section Meet

variable {c : RowCall} {t : List Incident} {r : Incident}

/-- A session executes a statement that does this. -/
theorem SessionMove.does {s : RowSessions} (n : ℕ) (x : RowSession) (st : Statement)
    (hx : s.sessions[n]? = some x) (hrunning : x.Running) (hfree : s.Free x)
    (h : x.statement s.table = st) :
    SessionMove s st.ended ⟨st.table, s.sessions.set n ⟨x.call, st.stage⟩⟩ := by
  subst h
  exact .own hx hrunning hfree rfl

theorem statement_waits (hr : r ∈ t) (hselects : c.selects r = true) :
    RowSession.statement ⟨c, .start⟩ t = ⟨t, .waiting, none⟩ :=
  if_pos (List.any_eq_true.mpr ⟨r, hr, hselects⟩)

theorem statement_locks (hfilter : t.filter c.selects = [r]) :
    RowSession.statement ⟨c, .waiting⟩ t = ⟨t, .locked r, none⟩ := by
  unfold RowSession.statement
  dsimp only
  rw [hfilter]
  rfl

theorem statement_updates (ht : (t.map Incident.id).Nodup) (hr : r ∈ t)
    (hselects : c.selects r = true) {t' : List Incident} {o : Answer}
    (h : step c.op t = .ok (t', o)) :
    RowSession.statement ⟨c, .locked r⟩ t = ⟨t', .ended (.ok o), some (c.op, .ok o)⟩ := by
  unfold RowSession.statement
  dsimp only
  rw [← RowCall.step_onRow ht hr hselects, h]
  rfl

/-- Two calls that both see a row before either has locked it. -/
theorem calls_meet {c' : RowCall} {t₁ t₂ : List Incident} {r₁ : Incident} {o o' : Answer}
    (ht : (t.map Incident.id).Nodup) (hr : r ∈ t) (hfilter : t.filter c.selects = [r])
    (hselects : c.selects r = true) (hselects' : c'.selects r = true)
    (h : step c.op t = .ok (t₁, o)) (hr₁ : r₁ ∈ t₁) (hfilter₁ : t₁.filter c'.selects = [r₁])
    (hselects₁ : c'.selects r₁ = true) (h' : step c'.op t₁ = .ok (t₂, o')) :
    Trace SessionMove ⟨t, []⟩ [(c.op, .ok o), (c'.op, .ok o')]
      ⟨t₂, [⟨c, .ended (.ok o)⟩, ⟨c', .ended (.ok o')⟩]⟩ := by
  have hfree : ∀ {table : List Incident} {a b : RowStage} {x : RowSession},
      (∀ row, a ≠ .locked row) → (∀ row, b ≠ .locked row) →
      RowSessions.Free ⟨table, [⟨c, a⟩, ⟨c', b⟩]⟩ x := by
    intro table a b x ha hb _ y hy hholds
    obtain ⟨row, hrow⟩ := holds_locked hholds
    rcases List.mem_cons.mp hy with rfl | hy
    · exact ha row hrow
    · rw [List.mem_singleton.mp hy] at hrow
      exact hb row hrow
  -- both begin and see the row
  have h2 : Trace SessionMove ⟨t, []⟩ [] ⟨t, [⟨c, .start⟩, ⟨c', .start⟩]⟩ :=
    (Trace.start.quiet (.begins ⟨t, []⟩ c)).quiet (.begins ⟨t, [⟨c, .start⟩]⟩ c')
  have h3 : Trace SessionMove ⟨t, []⟩ [] ⟨t, [⟨c, .waiting⟩, ⟨c', .start⟩]⟩ :=
    h2.quiet (.does 0 ⟨c, .start⟩ ⟨t, .waiting, none⟩ rfl (by rintro _ ⟨⟩) (by rintro ⟨⟩)
      (statement_waits hr hselects))
  have h4 : Trace SessionMove ⟨t, []⟩ [] ⟨t, [⟨c, .waiting⟩, ⟨c', .waiting⟩]⟩ :=
    h3.quiet (.does 1 ⟨c', .start⟩ ⟨t, .waiting, none⟩ rfl (by rintro _ ⟨⟩) (by rintro ⟨⟩)
      (statement_waits hr hselects'))
  -- one has the lock first
  have h5 : Trace SessionMove ⟨t, []⟩ [] ⟨t, [⟨c, .locked r⟩, ⟨c', .waiting⟩]⟩ :=
    h4.quiet (.does 0 ⟨c, .waiting⟩ ⟨t, .locked r, none⟩ rfl (by rintro _ ⟨⟩)
      (hfree (by rintro _ ⟨⟩) (by rintro _ ⟨⟩)) (statement_locks hfilter))
  have h6 : Trace SessionMove ⟨t, []⟩ [(c.op, .ok o)]
      ⟨t₁, [⟨c, .ended (.ok o)⟩, ⟨c', .waiting⟩]⟩ :=
    h5.ends (.does 0 ⟨c, .locked r⟩ ⟨t₁, .ended (.ok o), some (c.op, .ok o)⟩ rfl (by rintro _ ⟨⟩)
      (by rintro ⟨⟩) (statement_updates ht hr hselects h))
  -- then the other
  have hids₁ : (t₁.map Incident.id).Nodup := step_ids_nodup ht h
  have h7 : Trace SessionMove ⟨t, []⟩ [(c.op, .ok o)]
      ⟨t₁, [⟨c, .ended (.ok o)⟩, ⟨c', .locked r₁⟩]⟩ :=
    h6.quiet (.does 1 ⟨c', .waiting⟩ ⟨t₁, .locked r₁, none⟩ rfl (by rintro _ ⟨⟩)
      (hfree (by rintro _ ⟨⟩) (by rintro _ ⟨⟩)) (statement_locks hfilter₁))
  exact h7.ends (.does 1 ⟨c', .locked r₁⟩ ⟨t₂, .ended (.ok o'), some (c'.op, .ok o')⟩ rfl
    (by rintro _ ⟨⟩) (by rintro ⟨⟩) (statement_updates hids₁ hr₁ hselects₁ h'))

end Meet

/-- The one open row of id 0. -/
theorem open_zero {t : List Incident} (ht : (t.map Incident.id).Nodup)
    (hany : t.any (openWithId 0) = true) :
    ∃ r ∈ t, t.filter (openWithId 0) = [r] ∧ openWithId 0 r = true := by
  obtain ⟨r, hr, hselects⟩ := List.any_eq_true.mp hany
  obtain ⟨hid, hstatus⟩ := openWithId_iff.mp hselects
  exact ⟨r, hr, hid ▸ filter_openWithId ht hr hstatus, hselects⟩

theorem step_ok {op : Op} {t : List Incident} (h : (step op t).toBool = true) :
    ∃ t' o, step op t = .ok (t', o) := by
  cases hstep : step op t with
  | error e =>
    rw [hstep] at h
    cases h
  | ok p => exact ⟨p.1, p.2, rfl⟩

/-- An acknowledgement and a close of one incident, which both see it before either has it. -/
theorem row_calls_serialize_sample : ∃ acked closed,
    InTurn step (tableAfter (sampleProblem "cpu" 0 2 60))
      [(.ack (sampleTime 5) 0 "ops", .ok acked),
        (.close (sampleTime 6) 0 "ops" "done", .ok closed)] := by
  have ht := ids_nodup (sampleProblem "cpu" 0 2 60)
  obtain ⟨r, hr, hfilter, hselects⟩ := open_zero ht (by decide +kernel)
  obtain ⟨t₁, acked, hack⟩ := step_ok (by decide +kernel :
    (step (.ack (sampleTime 5) 0 "ops") (tableAfter (sampleProblem "cpu" 0 2 60))).toBool = true)
  have ht₁ := (run_concat_ok hack).1
  obtain ⟨r₁, hr₁, hfilter₁, hselects₁⟩ := open_zero (step_ids_nodup ht hack)
    (ht₁ ▸ (by decide +kernel))
  obtain ⟨t₂, closed, hclose⟩ := step_ok
    (ht₁ ▸ (by decide +kernel) : (step (.close (sampleTime 6) 0 "ops" "done") t₁).toBool = true)
  have hmeet := @calls_meet (.ack (sampleTime 5) 0 "ops") _ r (.close (sampleTime 6) 0 "ops" "done")
    t₁ t₂ r₁ acked closed ht hr hfilter hselects hselects hack hr₁ hfilter₁ hselects₁ hclose
  exact ⟨acked, closed, (row_calls_serialize _ _ _ hmeet).2.1⟩

end Correlia
