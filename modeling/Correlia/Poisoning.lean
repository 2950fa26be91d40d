import Correlia.Ingestion
import Correlia.Membership

/-!
# Poisoning — when a lifecycle call completes

A lifecycle call copies texts into the notes of a decision context, which is then validated.  The
notes pass their bounds whatever the call is about; what can fail is the filter on forbidden
fragments, on a host, a service, a source or a rule name.
-/

namespace Correlia

open Lib

/-! ### Clean texts -/

/-- Every forbidden fragment has an `o` or an `r`. -/
theorem forbidden_letters : ∀ f ∈ forbiddenNoteFragments, 'o' ∈ f.toList ∨ 'r' ∈ f.toList := by
  decide

/-- Characters that cannot spell a forbidden fragment. -/
def Harmless (chars : List Char) : Prop :=
  ∀ d ∈ chars, 'o' ∉ lowerChar d ∧ 'r' ∉ lowerChar d

theorem isClean_of_chars {chars : List Char} (hchars : Harmless chars) {text : String}
    (h : ∀ c ∈ text.toList, c ∈ chars) : isClean text = true := by
  have ho : 'o' ∉ lower text := by
    intro hin
    obtain ⟨d, hd, hcd⟩ := mem_lower.mp hin
    exact (hchars d (h d hd)).1 hcd
  have hr : 'r' ∉ lower text := by
    intro hin
    obtain ⟨d, hd, hcd⟩ := mem_lower.mp hin
    exact (hchars d (h d hd)).2 hcd
  refine List.all_eq_true.mpr fun f hf => ?_
  rw [Bool.not_eq_true']
  rcases forbidden_letters f hf with hc | hc
  · exact hasFragment_eq_false hc ho
  · exact hasFragment_eq_false hc hr

theorem hexChars_harmless : Harmless hexChars := by
  intro d hd
  fin_cases hd <;> decide

theorem isoChars_harmless : Harmless Datetime.isoChars := by
  intro d hd
  fin_cases hd <;> decide

theorem digitChars_harmless : Harmless digitChars := fun d hd =>
  hexChars_harmless d (List.mem_append_left _ hd)

/-- What a note under a lifecycle key must be. -/
def ValueOk (value : String) : Prop := Bounded value ∧ isClean value = true

theorem natText_ok {n : ℕ} (h : n < 10 ^ 256) : ValueOk (natText n) :=
  ⟨⟨natText_length_pos n, natText_length_le (by omega) h⟩,
    isClean_of_chars digitChars_harmless (natText_chars n)⟩

theorem isoformat_ok (d : Datetime) : ValueOk (takeText noteTextMax d.isoformat) := by
  have hlength := Datetime.isoformat_length d
  have htake : takeText noteTextMax d.isoformat = d.isoformat :=
    takeText_of_length_le (hlength.2.trans (by decide))
  rw [htake]
  refine ⟨⟨?_, ?_⟩, isClean_of_chars isoChars_harmless (Datetime.isoformat_chars d)⟩
  · omega
  · omega

/-- Every key `_lifecycle_notes` uses, in its order. -/
def lifecycleKeys : List String :=
  ["lifecycle.reason", "lifecycle.previous_host_count", "lifecycle.previous_service_count",
   "lifecycle.fingerprint", "lifecycle.source_id", "lifecycle.host", "lifecycle.service",
   "lifecycle.recovery_timestamp", "lifecycle.operator", "lifecycle.detail", "lifecycle.rule_name",
   "lifecycle.window_seconds", "lifecycle.last_update_time", "lifecycle.expired_at"]

/-- The keys pass every check themselves, and none of them is kept from earlier notes. -/
theorem lifecycleKeys_ok : ∀ k ∈ lifecycleKeys,
    (1 ≤ k.length ∧ matchesTagKey k = true) ∧ isClean k = true ∧ isLifecycleKey k = true := by
  intro k hk
  fin_cases hk <;> decide

theorem lifecycleKeys_nodup : lifecycleKeys.Nodup := by decide

theorem optNote_sublist {α : Type} (key : String) (text : α → String) (o : Option α) :
    ((optNote key text o).map Prod.fst).Sublist [key] := by
  cases o with
  | none => exact List.nil_sublist _
  | some a => exact List.Sublist.refl _

theorem lifecycleNotes_keys (a : LifecycleArgs) :
    ((lifecycleNotes a).map Prod.fst).Sublist lifecycleKeys := by
  have hkeys : lifecycleKeys =
      ["lifecycle.reason", "lifecycle.previous_host_count", "lifecycle.previous_service_count"] ++
        ["lifecycle.fingerprint"] ++ ["lifecycle.source_id"] ++ ["lifecycle.host"] ++
        ["lifecycle.service"] ++ ["lifecycle.recovery_timestamp"] ++ ["lifecycle.operator"] ++
        ["lifecycle.detail"] ++ ["lifecycle.rule_name"] ++ ["lifecycle.window_seconds"] ++
        ["lifecycle.last_update_time"] ++ ["lifecycle.expired_at"] := rfl
  simp only [lifecycleNotes, List.map_append, hkeys]
  iterate 11 refine List.Sublist.append ?_ (optNote_sublist _ _ _)
  exact List.Sublist.refl _

theorem mem_lifecycleKeys {a : LifecycleArgs} {n : String × String} (hn : n ∈ lifecycleNotes a) :
    n.1 ∈ lifecycleKeys := (lifecycleNotes_keys a).subset (List.mem_map_of_mem hn)

theorem lifecycleNotes_length (a : LifecycleArgs) : (lifecycleNotes a).length ≤ 14 := by
  have h := (lifecycleNotes_keys a).length_le
  rwa [List.length_map] at h

theorem lastItems_sublist {α : Type} (n : ℕ) (l : List α) : (lastItems n l).Sublist l := by
  unfold lastItems
  split_ifs
  · exact List.Sublist.refl _
  · exact List.drop_sublist _ _

theorem lastItems_length_le {α : Type} {n : ℕ} (hn : 0 < n) (l : List α) :
    (lastItems n l).length ≤ n := by
  unfold lastItems
  rw [if_neg (by omega), List.length_drop]
  omega

/-! ### The merged notes -/

/-- The notes kept of a context: no lifecycle notes, and not the oldest. -/
def keptNotes (existing : Dict JsonKey String) (a : LifecycleArgs) : List (JsonKey × String) :=
  lastItems (20 - (lifecycleNotes a).length)
    (existing.entries.filter fun e => !isLifecycleKey e.1.text)

theorem keptNotes_sublist (existing : Dict JsonKey String) (a : LifecycleArgs) :
    (keptNotes existing a).Sublist existing.entries :=
  (lastItems_sublist _ _).trans List.filter_sublist

theorem mergedNotes_eq (existing : Dict JsonKey String) (a : LifecycleArgs) :
    mergedNotes existing a = Dict.ofItems
      (keptNotes existing a ++ (lifecycleNotes a).map fun n => (⟨n.1⟩, n.2)) := rfl

theorem mergedNotes_keys_nodup (existing : Dict JsonKey String) (a : LifecycleArgs) :
    ((keptNotes existing a ++ (lifecycleNotes a).map fun n => (JsonKey.mk n.1, n.2)).map
      Prod.fst).Nodup := by
  rw [List.map_append, List.map_map]
  have hnew : (lifecycleNotes a).map (Prod.fst ∘ fun n => (JsonKey.mk n.1, n.2)) =
      ((lifecycleNotes a).map Prod.fst).map JsonKey.mk := by
    rw [List.map_map]
    rfl
  rw [hnew]
  refine List.Nodup.append ?_ ?_ ?_
  · exact existing.keys_nodup.sublist ((keptNotes_sublist existing a).map Prod.fst)
  · have hinj : Function.Injective JsonKey.mk := fun k k' h => JsonKey.mk.inj h
    exact (lifecycleKeys_nodup.sublist (lifecycleNotes_keys a)).map hinj
  · intro k hk hnew
    obtain ⟨e, he, rfl⟩ := List.mem_map.mp hk
    obtain ⟨key, hkey, heq⟩ := List.mem_map.mp hnew
    have hlifecycle := (lifecycleKeys_ok key ((lifecycleNotes_keys a).subset hkey)).2.2
    have hkept := (List.mem_filter.mp ((lastItems_sublist _ _).subset he)).2
    rw [← heq] at hkept
    rw [hlifecycle] at hkept
    exact absurd hkept (by decide)

theorem mem_mergedNotes {existing : Dict JsonKey String} {a : LifecycleArgs} {e : JsonKey × String} :
    e ∈ (mergedNotes existing a).entries ↔
      e ∈ keptNotes existing a ∨ ∃ n ∈ lifecycleNotes a, (JsonKey.mk n.1, n.2) = e := by
  rw [mergedNotes_eq, Dict.mem_ofItems (mergedNotes_keys_nodup existing a), List.mem_append,
    List.mem_map]

theorem mergedNotes_size (existing : Dict JsonKey String) (a : LifecycleArgs) :
    (mergedNotes existing a).size ≤ 20 := by
  have hnotes := lifecycleNotes_length a
  have hkept : (keptNotes existing a).length ≤ 20 - (lifecycleNotes a).length :=
    lastItems_length_le (by omega) _
  have hsize := Dict.size_ofItems_le
    (keptNotes existing a ++ (lifecycleNotes a).map fun n => (JsonKey.mk n.1, n.2))
  rw [List.length_append, List.length_map] at hsize
  rw [mergedNotes_eq]
  omega

/-- The merged notes pass when the lifecycle notes do. -/
theorem mergedNotes_errors {existing : Dict JsonKey String} (h : notesErrors existing = [])
    (a : LifecycleArgs) :
    notesErrors (mergedNotes existing a) = [] ↔ ∀ n ∈ lifecycleNotes a, NoteOk n.1 n.2 := by
  obtain ⟨hexisting, -⟩ := notesErrors_eq_nil.mp h
  rw [notesErrors_eq_nil, and_iff_left (mergedNotes_size existing a)]
  constructor
  · intro hall n hn
    exact hall (⟨n.1⟩, n.2) (mem_mergedNotes.mpr (Or.inr ⟨n, hn, rfl⟩))
  · intro hnotes e he
    rcases mem_mergedNotes.mp he with hkept | ⟨n, hn, rfl⟩
    · exact hexisting e ((keptNotes_sublist existing a).subset hkept)
    · exact hnotes n hn

/-! ### The lifecycle context -/

theorem orElseText_bounded {o fallback : Option String} (ho : ∀ s ∈ o, Bounded s)
    (hfallback : ∀ s ∈ fallback, Bounded s) : ∀ s ∈ orElseText o fallback, Bounded s := by
  unfold orElseText
  cases o with
  | none => exact hfallback
  | some v =>
    by_cases hv : v = ""
    · simp only [if_pos hv]
      exact hfallback
    · simp only [if_neg hv]
      exact ho

/-- The fields of the lifecycle context over a context with these fields. -/
def lifecycleFields (c : ContextFields) (eventCount : ℕ) (a : LifecycleArgs) : ContextFields :=
  { c with
    notes := mergedNotes c.notes a
    fingerprint := orElseText a.fingerprint c.fingerprint
    sourceId := orElseText a.sourceId c.sourceId
    eventCount := some eventCount }

theorem lifecycleContext_eq_ok {r : Incident} {a : LifecycleArgs} {d : ContextData} :
    lifecycleContext r a = .ok d ↔
      (lifecycleFields r.decisionContext.fill r.eventCount a).errors = [] ∧
        d = (lifecycleFields r.decisionContext.fill r.eventCount a).dump := by
  have hfill : ContextData.fill { r.decisionContext with
      notes := some (mergedNotes (r.decisionContext.notes.getD Dict.empty) a)
      fingerprint := some (orElseText a.fingerprint (r.decisionContext.fingerprint.getD none))
      sourceId := some (orElseText a.sourceId (r.decisionContext.sourceId.getD none))
      eventCount := some (some r.eventCount) } =
        lifecycleFields r.decisionContext.fill r.eventCount a := by
    simp only [ContextData.fill, lifecycleFields, Option.getD_some]
  rw [← hfill]
  exact normalizeContext_eq_ok

/-- Of what a lifecycle context changes, the notes decide. -/
theorem ContextFields.Sound.rewritten {c : ContextFields} (h : c.Sound) {notes : Dict JsonKey String}
    {fingerprint sourceId : Option String} {eventCount : Option ℕ}
    (hfingerprint : ∀ s ∈ fingerprint, Bounded s) (hsource : ∀ s ∈ sourceId, Bounded s) :
    ({ c with notes, fingerprint, sourceId, eventCount } : ContextFields).Sound ↔
      notesErrors notes = [] := by
  constructor
  · intro h'
    exact h'.notes
  · intro hnotes
    exact ⟨hfingerprint, hsource, h.ruleName, h.groupKey, h.matchedRuleNames, h.enrichmentRefs,
      h.configHash, hnotes, h.thresholdCount, h.actionNames, h.deliveries⟩

/-- Over a valid context a lifecycle context is refused for its notes only. -/
theorem lifecycleContext_ok_iff {r : Incident} {a : LifecycleArgs} (hr : r.decisionContext.Valid)
    (hfingerprint : ∀ s ∈ a.fingerprint, Bounded s) (hsource : ∀ s ∈ a.sourceId, Bounded s) :
    (∃ context, lifecycleContext r a = .ok context) ↔
      ∀ n ∈ lifecycleNotes a, NoteOk n.1 n.2 := by
  have hold := ContextFields.errors_eq_nil.mp hr
  rw [← mergedNotes_errors hold.notes a]
  have hvalid : (∃ context, lifecycleContext r a = .ok context) ↔
      (lifecycleFields r.decisionContext.fill r.eventCount a).Sound := by
    rw [← ContextFields.errors_eq_nil]
    constructor
    · rintro ⟨context, hcontext⟩
      exact (lifecycleContext_eq_ok.mp hcontext).1
    · intro h
      exact ⟨_, lifecycleContext_eq_ok.mpr ⟨h, rfl⟩⟩
  rw [hvalid, lifecycleFields]
  exact hold.rewritten (orElseText_bounded hfingerprint hold.fingerprint)
    (orElseText_bounded hsource hold.sourceId)

/-! ### Which notes pass -/

theorem noteOk_iff {key value : String} (hkey : key ∈ lifecycleKeys) :
    NoteOk key value ↔ ValueOk value := by
  obtain ⟨hshape, hclean, -⟩ := lifecycleKeys_ok key hkey
  constructor
  · rintro ⟨-, hbounds, -, hvalue⟩
    exact ⟨hbounds, hvalue⟩
  · rintro ⟨hbounds, hvalue⟩
    exact ⟨hshape, hbounds, hclean, hvalue⟩

theorem forall_optNote {α : Type} {key : String} {text : α → String} {o : Option α}
    {P : String × String → Prop} : (∀ n ∈ optNote key text o, P n) ↔ ∀ a ∈ o, P (key, text a) := by
  cases o <;> simp [optNote]

/-- The reasons the calls give. -/
theorem reasons_ok :
    ∀ s ∈ ["source_recovery", "acknowledged", "manual_close", "expired"], ValueOk s := by
  intro s hs
  fin_cases hs <;> exact ⟨⟨by decide, by decide⟩, by decide⟩

/-- The values a call copies into its notes, each as it is copied. -/
structure LifecycleArgs.NotesOk (a : LifecycleArgs) : Prop where
  reason : ValueOk a.reason
  previousHostCount : ValueOk (natText a.previousHostCount)
  previousServiceCount : ValueOk (natText a.previousServiceCount)
  fingerprint : ∀ s ∈ a.fingerprint, ValueOk (takeText noteTextMax s)
  sourceId : ∀ s ∈ a.sourceId, ValueOk (takeText noteTextMax s)
  host : ∀ s ∈ a.host, ValueOk (takeText noteTextMax s)
  service : ∀ s ∈ a.service, ValueOk (takeText noteTextMax s)
  operator : ∀ s ∈ a.operator, ValueOk (takeText noteTextMax s)
  detail : ∀ s ∈ a.detail, ValueOk (takeText noteTextMax s)
  ruleName : ∀ s ∈ a.ruleName, ValueOk (takeText noteTextMax s)
  windowSeconds : ∀ n ∈ a.windowSeconds, ValueOk (natText n)

theorem lifecycleNotes_ok_iff {a : LifecycleArgs} :
    (∀ n ∈ lifecycleNotes a, NoteOk n.1 n.2) ↔ a.NotesOk := by
  have hkeys : (∀ n ∈ lifecycleNotes a, NoteOk n.1 n.2) ↔
      ∀ n ∈ lifecycleNotes a, ValueOk n.2 :=
    forall₂_congr fun n hn => noteOk_iff (mem_lifecycleKeys hn)
  rw [hkeys]
  simp only [lifecycleNotes, List.forall_mem_append, List.forall_mem_cons, forall_optNote,
    List.not_mem_nil, false_implies, implies_true, and_true]
  constructor
  · rintro ⟨⟨⟨⟨⟨⟨⟨⟨⟨⟨⟨⟨h1, h2, h3⟩, h4⟩, h5⟩, h6⟩, h7⟩, -⟩, h8⟩, h9⟩, h10⟩, h11⟩, -⟩, -⟩
    exact ⟨h1, h2, h3, h4, h5, h6, h7, h8, h9, h10, h11⟩
  · intro h
    exact ⟨⟨⟨⟨⟨⟨⟨⟨⟨⟨⟨⟨h.reason, h.previousHostCount, h.previousServiceCount⟩, h.fingerprint⟩,
      h.sourceId⟩, h.host⟩, h.service⟩, fun d _ => isoformat_ok d⟩, h.operator⟩, h.detail⟩,
      h.ruleName⟩, h.windowSeconds⟩, fun d _ => isoformat_ok d⟩, fun d _ => isoformat_ok d⟩

/-! ### The rows a lifecycle call meets -/

/-- What every row of a reachable table keeps of the problems it came from. -/
structure RowLimits (r : Incident) : Prop where
  context : r.decisionContext.Valid
  objects : r.windowState.val.activeObjects.length ≤ jsonbArrayMax
  ruleName : isBlank r.ruleName = false

theorem Fresh.limits {p : ProblemCall} {t : List Incident} {r : Incident} (h : Fresh p t r) :
    RowLimits r := by
  refine ⟨h.context_valid, h.objects_le, ?_⟩
  obtain ⟨_, _, _, _, _, rfl⟩ := h.made
  exact p.input.ruleName_ok

theorem recoveredIncident_limits {r : Incident} (hr : RowLimits r) (hinv : RowInvariant r)
    (now : Timestamptz) (covered : IncidentObject → Bool) {context : ContextData}
    (hcontext : context.Valid) : RowLimits (recoveredIncident now covered context r) := by
  have hobjects : (recoveredIncident now covered context r).windowState.val.activeObjects =
      remainingObjects covered r := recoveredIncident_objects hinv
  have hlength : (remainingObjects covered r).length ≤ r.windowState.val.activeObjects.length :=
    List.length_filter_le _ _
  have hname : (recoveredIncident now covered context r).ruleName = r.ruleName := by
    unfold recoveredIncident
    split_ifs <;> rfl
  constructor
  · rw [recoveredIncident_context]
    exact hcontext
  · rw [hobjects]
    exact hlength.trans hr.objects
  · rw [hname]
    exact hr.ruleName

theorem RowChange.limits {op : Op} {r r' : Incident} (hr : RowLimits r) (hinv : RowInvariant r)
    (h : RowChange op r r') : RowLimits r' := by
  cases h with
  | same => exact hr
  | merged _ h =>
    cases h with
    | intro eventTime context _ _ _ _ hlen hcontext => exact ⟨hcontext, hlen, hr.ruleName⟩
  | recovered _ _ _ hcontext => exact recoveredIncident_limits hr hinv _ _ hcontext
  | acknowledged _ _ hcontext => exact ⟨hcontext, hr.objects, hr.ruleName⟩
  | closed _ _ hcontext => exact ⟨hcontext, hr.objects, hr.ruleName⟩
  | notified _ hcontext _ => exact ⟨hcontext, hr.objects, hr.ruleName⟩

theorem rowLimits {ops : List Op} {r : Incident} (hr : r ∈ tableAfter ops) : RowLimits r := by
  have hall := row_invariant (P := fun r => RowInvariant r ∧ RowLimits r)
    (fun _ _ _ h => ⟨h.invariant, h.limits⟩)
    (fun _ _ _ h hchg => ⟨hchg.invariant h.1, hchg.limits h.2 h.1⟩) ops
  exact (hall r hr).2

theorem activeObjectCounts_le (objs : List IncidentObject) :
    (activeObjectCounts objs).1 ≤ objs.length ∧ (activeObjectCounts objs).2 ≤ objs.length := by
  constructor
  · have h := (objs.map fun o => o.val.host).dedup_sublist.length_le
    rwa [List.length_map] at h
  · have h := (objs.filterMap fun o => o.val.service).dedup_sublist.length_le
    have h' := List.length_filterMap_le (fun o : IncidentObject => o.val.service) objs
    exact h.trans h'

/-- The member counts of a row, as texts. -/
theorem RowLimits.counts {r : Incident} (hr : RowLimits r) :
    ValueOk (natText (activeObjectCounts r.windowState.val.activeObjects).1) ∧
      ValueOk (natText (activeObjectCounts r.windowState.val.activeObjects).2) := by
  obtain ⟨hhosts, hservices⟩ := activeObjectCounts_le r.windowState.val.activeObjects
  have hmax : jsonbArrayMax < 10 ^ 256 := by decide
  have hobjects := hr.objects
  exact ⟨natText_ok (by omega), natText_ok (by omega)⟩

/-! ### The notes of each call -/

/-- An event the plugin made of an accepted payload. -/
structure Accepted (sha256 : String → HexDigest) (event : NormalizedEvent) : Prop where
  payload : ∃ payload, processPayload sha256 payload = .ok (.event event)

theorem Accepted.bounds {sha256 : String → HexDigest} {event : NormalizedEvent}
    (h : Accepted sha256 event) : Bounded event.val.host ∧ Bounded event.val.sourceId ∧
      (∀ s ∈ event.val.service, Bounded s) ∧ event.val.fingerprint.length = 32 ∧
      ∀ c ∈ event.val.fingerprint.toList, c ∈ hexChars := by
  obtain ⟨payload, hpayload⟩ := h.payload
  have hp := accepted payload
  have hard : payload.val.stateType = .hard := by
    cases hs : payload.val.stateType with
    | hard => rfl
    | soft =>
      simp only [processPayload, if_pos hs] at hpayload
      obtain ⟨_, -, h⟩ := bind_eq_ok.mp hpayload
      cases h
  obtain ⟨m, -, event', hevent, heq⟩ := (processPayload_hard hard).mp hpayload
  cases heq
  rw [hevent]
  exact ⟨hp.host, hp.sourceId, hp.service, fingerprint_length _ _ _ _ _,
    fingerprint_chars _ _ _ _ _⟩

/-- A lifecycle call with arguments its callers admit. -/
inductive LifecycleCall
  | resolve (sha256 : String → HexDigest) (event : NormalizedEvent) (accepted : Accepted sha256 event)
      (recovery : event.val.eventType = .recovery)
  | ack (id : UUID) (request : IncidentAckRequest)
  | close (id : UUID) (request : IncidentCloseRequest)
  | expire (locked : List UUID) (limit : ℤ) (positive : 1 ≤ limit)

/-- The table the call leaves. -/
def LifecycleCall.run (now : Timestamptz) (t : List Incident) :
    LifecycleCall → Except OpError (List Incident)
  | .resolve _ event _ _ => (resolveForEvent now event t).map Prod.fst
  | .ack id request => (ackOpenIncident now id request.val.operator t).map Prod.fst
  | .close id request =>
    (closeOpenIncident now id request.val.operator request.val.reason t).map Prod.fst
  | .expire locked limit _ => (expireStaleIncidents now locked limit t).map Prod.fst

section Operator

variable {now : Timestamptz} {c : Incident}

end Operator

/-- The selection of a sweep fails for a window of 2³¹ seconds, else it is `sweptRows`. -/
theorem expirationCandidates_eq (now : Timestamptz) (locked : List UUID) (limit : ℤ)
    (t : List Incident) : (∃ cs, expirationCandidates now locked limit.toNat t = .ok cs) ↔
      ∀ r ∈ t, r.status = .«open» → r.windowState.val.windowSeconds < int4End := by
  have hany : ((t.filter Incident.isOpen).any fun r =>
      decide (int4End ≤ r.windowState.val.windowSeconds)) = false ↔
        ∀ r ∈ t, r.status = .«open» → r.windowState.val.windowSeconds < int4End := by
    rw [List.any_eq_false]
    constructor
    · intro h r hr hopen
      have := h r (List.mem_filter.mpr ⟨hr, Incident.isOpen_iff.mpr hopen⟩)
      rw [decide_eq_true_eq] at this
      omega
    · intro h r hr
      obtain ⟨hr, hopen⟩ := List.mem_filter.mp hr
      have := h r hr (Incident.isOpen_iff.mp hopen)
      rw [decide_eq_true_eq]
      omega
  rw [← hany, expirationCandidates]
  by_cases h : ((t.filter Incident.isOpen).any fun r =>
      decide (int4End ≤ r.windowState.val.windowSeconds)) = true
  · simp only [h, if_true, reduceCtorEq, exists_false]
  · simp only [h, Bool.false_eq_true, if_false, Except.ok.injEq, exists_eq']

/-- The digests of the two texts the samples hash. -/
def databaseSha256 : String → HexDigest := fun s =>
  if s = "mon|payload-db|PROBLEM|CRITICAL|http" then
    HexDigest.ofNat 0xd04ea30ac8e06fa4b8e7d66e4e6f62b3342eca55f884fc35dbab90d50bbfc22d
  else HexDigest.ofNat 0x49995e459d752f159019af45c2541b11ce4f84da7df04015fa2ed622075e6202

/-- A service check on a host whose name holds a forbidden fragment. -/
def databasePayload (state : String) (h : state = "CRITICAL" ∨ state = "OK") :
    Icinga2WebhookPayload :=
  ⟨{ sampleFields "timeout" with host := "payload-db", state := state }, by
    rcases h with rfl | rfl <;> decide⟩

def databaseEvent (state : String) (h : state = "CRITICAL" ∨ state = "OK") (severity : Severity)
    (eventType : EventType) : NormalizedEvent :=
  ⟨eventData databaseSha256 (databasePayload state h).val severity eventType,
    (eventData_errors _ _ _ _).mpr (show "timeout".length ≤ 4096 by decide)⟩

def databaseProblem : NormalizedEvent := databaseEvent "CRITICAL" (Or.inl rfl) .critical .problem

/-- The match of the sample rule. -/
def databaseMatch : RuleMatch :=
  ⟨matchDecision sampleCompiledRule.definition.val databaseProblem.val "host=payload-db", by decide⟩

def databaseRun : List Op :=
  [.applyProblem (sampleTime 0) 0 (some sampleConfigHash.val) databaseProblem databaseMatch]

end Correlia
