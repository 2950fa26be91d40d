import Correlia.Ingestion

/-!
# Fingerprints — what a fingerprint tells of its event

The hashed text is `source|host|type|severity`, and `|service` where there is one.  Type and severity
are words of two fixed lists; source, host and service are free text, so the text may have a second
reading.
-/

namespace Correlia

open Lib

/-! ### The hashed text -/

/-- The part behind the source and the host. -/
def stateText (eventType : EventType) (severity : Severity) (service : Option String) : List Char :=
  eventType.value.toList ++ '|' :: (severity.value.toList ++
    service.elim [] fun s => '|' :: s.toList)

/-- What the fingerprint of an event is the digest of. -/
def hashedText (e : EventData) : String :=
  "|".intercalate ([e.sourceId, e.host, e.eventType.value, e.severity.value] ++ e.service.toList)

theorem toList_hashedText (e : EventData) :
    (hashedText e).toList = (e.sourceId.toList ++ '|' :: e.host.toList) ++ '|' ::
      stateText e.eventType e.severity e.service := by
  cases hs : e.service with
  | none => simp [hashedText, stateText, hs]
  | some s => simp [hashedText, stateText, hs]

/-- A text up to its first bar. -/
theorem append_bar_injective {a a' x x' : List Char} (ha : '|' ∉ a) (ha' : '|' ∉ a')
    (hx : x.takeWhile (· ≠ '|') = []) (hx' : x'.takeWhile (· ≠ '|') = [])
    (h : a ++ x = a' ++ x') : a = a' ∧ x = x' := by
  have htake : ∀ {a x : List Char}, '|' ∉ a → x.takeWhile (· ≠ '|') = [] →
      (a ++ x).takeWhile (· ≠ '|') = a := by
    intro a x ha hx
    rw [List.takeWhile_append_of_pos, hx, List.append_nil]
    intro c hc
    exact decide_eq_true fun hbar => ha (hbar ▸ hc)
  have heq : a = a' := by rw [← htake ha hx, h, htake ha' hx']
  subst heq
  exact ⟨rfl, List.append_cancel_left h⟩

theorem bar_notMem_eventType (t : EventType) : '|' ∉ t.value.toList := by
  cases t <;> decide

theorem bar_notMem_severity (s : Severity) : '|' ∉ s.value.toList := by
  cases s <;> decide

theorem stateText_injective {t t' : EventType} {s s' : Severity} {service service' : Option String}
    (h : stateText t s service = stateText t' s' service') :
    t = t' ∧ s = s' ∧ service = service' := by
  have hstart : ∀ service : Option String,
      (service.elim [] fun s => '|' :: s.toList).takeWhile (· ≠ '|') = [] := by
    rintro (_ | s) <;> rfl
  obtain ⟨ht, hrest⟩ := append_bar_injective (bar_notMem_eventType t) (bar_notMem_eventType t')
    rfl rfl h
  obtain ⟨hs, hservice⟩ := append_bar_injective (bar_notMem_severity s) (bar_notMem_severity s')
    (hstart service) (hstart service') (List.cons_eq_cons.mp hrest).2
  refine ⟨?_, ?_, ?_⟩
  · cases t <;> cases t' <;> first | rfl | exact absurd (String.toList_inj.mp ht) (by decide)
  · cases s <;> cases s' <;> first | rfl | exact absurd (String.toList_inj.mp hs) (by decide)
  · cases service with
    | none =>
      cases service' with
      | none => rfl
      | some s' => cases hservice
    | some s =>
      cases service' with
      | none => cases hservice
      | some s' => rw [String.toList_inj.mp (List.cons_eq_cons.mp hservice).2]

/-! ### Events of payloads -/

section

variable {sha256 : String → HexDigest} {payload : Icinga2WebhookPayload} {e : NormalizedEvent}

theorem errors_of_accepted {p : PayloadFields} (h : p.Accepted) : p.errors = [] := by
  simp only [PayloadFields.errors, thenErrors_eq_nil, List.append_eq_nil_iff, strErrors_eq_nil,
    optErrors_eq_nil, check_eq_nil, decide_eq_true_eq, PayloadFields.stateErrors]
  exact ⟨⟨⟨⟨⟨⟨h.sourceId, h.host⟩, h.service⟩, h.checkOutput⟩, h.ipAddress⟩, h.tags⟩, h.state⟩

/-- The event of a payload. -/
theorem event_of_payload (h : processPayload sha256 payload = .ok (.event e)) :
    payload.val.stateType = .hard ∧
      ∃ m, getItem payload.val.state (icingaStates payload.val.service.isNone) = some m ∧
        e.val = eventData sha256 payload.val m.1 m.2 := by
  cases hard : payload.val.stateType with
  | hard =>
    obtain ⟨m, hm, event', hevent, heq⟩ := (processPayload_hard hard).mp h
    cases heq
    exact ⟨rfl, m, orThrow_eq_ok.mp hm, hevent⟩
  | soft =>
    simp only [processPayload, if_pos hard] at h
    obtain ⟨_, -, h⟩ := bind_eq_ok.mp h
    cases h

/-- A name of a payload: 1 to 256 characters. -/
def IsName (s : List Char) : Prop := 1 ≤ s.length ∧ s.length ≤ 256

theorem isName_toList {s : String} : IsName s.toList ↔ 1 ≤ s.length ∧ s.length ≤ 256 := by
  rw [IsName, String.length_toList]

/-- A payload like another, of another object in another state. -/
theorem exists_event (h : processPayload sha256 payload = .ok (.event e)) {a b state : String}
    {service : Option String} {m : Severity × EventType} (ha : IsName a.toList)
    (hb : IsName b.toList) (hs : ∀ s ∈ service, IsName s.toList)
    (hm : getItem state (icingaStates service.isNone) = some m) :
    ∃ (payload' : Icinga2WebhookPayload) (f : NormalizedEvent),
      processPayload sha256 payload' = .ok (.event f) ∧ f.val.sourceId = a ∧ f.val.host = b ∧
        f.val.service = service ∧ f.val.severity = m.1 ∧ f.val.eventType = m.2 := by
  obtain ⟨hard, m', -, heq⟩ := event_of_payload h
  have hp := accepted payload
  have haccepted : PayloadFields.Accepted
      { payload.val with sourceId := a, host := b, service := service, state := state } :=
    { sourceId := isName_toList.mp ha
      host := isName_toList.mp hb
      service := fun s hmem => isName_toList.mp (hs s hmem)
      checkOutput := hp.checkOutput
      ipAddress := hp.ipAddress
      tags := hp.tags
      state := List.mem_map_of_mem (f := Prod.fst) (mem_of_getItem hm) }
  have hlength : payload.val.checkOutput.length ≤ 4096 :=
    (eventData_errors sha256 payload m'.1 m'.2).mp (heq ▸ e.valid)
  let payload' : Icinga2WebhookPayload := ⟨_, errors_of_accepted haccepted⟩
  have hvalid : (eventData sha256 payload'.val m.1 m.2).errors = [] :=
    (eventData_errors sha256 payload' m.1 m.2).mpr hlength
  refine ⟨payload', ⟨_, hvalid⟩, ?_, rfl, rfl, rfl, rfl, rfl⟩
  have hhard : payload'.val.stateType = .hard := hard
  rw [processPayload_hard hhard]
  exact ⟨m, orThrow_eq_ok.mpr hm, _, rfl, rfl⟩

/-! ### Readings of a hashed text -/

/-- A source and a host. -/
def IsNames (u : List Char) : Prop := ∃ a b, IsName a ∧ IsName b ∧ u = a ++ '|' :: b

/-- The type and the severity of a state, with a service or without. -/
def IsStateText (t : List Char) : Prop :=
  ∃ state m service, getItem state (icingaStates (Option.isNone service)) = some m ∧
    (∀ s ∈ service, IsName s.toList) ∧ t = stateText m.2 m.1 service

/-- The text of an event has no second reading: source and host cannot be divided at another `|`,
and behind no other source and host a state stands that reaches to the end. -/
structure Unambiguous (e : EventData) : Prop where
  source : ∀ a r, e.sourceId.toList = a ++ '|' :: r →
    a = [] ∨ 256 < (r ++ '|' :: e.host.toList).length
  host : ∀ r b, e.host.toList = r ++ '|' :: b →
    b = [] ∨ 256 < (e.sourceId.toList ++ '|' :: r).length
  state : ∀ u t, (hashedText e).toList = u ++ '|' :: t → IsNames u → IsStateText t →
    t = stateText e.eventType e.severity e.service

/-- The same object in the same state. -/
def SameSource (e f : EventData) : Prop :=
  f.sourceId = e.sourceId ∧ f.host = e.host ∧ f.service = e.service ∧
    f.eventType = e.eventType ∧ f.severity = e.severity

theorem isName_event (h : processPayload sha256 payload = .ok (.event e)) :
    IsName e.val.sourceId.toList ∧ IsName e.val.host.toList ∧
      IsStateText (stateText e.val.eventType e.val.severity e.val.service) := by
  obtain ⟨-, m, hm, heq⟩ := event_of_payload h
  have hp := accepted payload
  rw [heq]
  exact ⟨isName_toList.mpr hp.sourceId, isName_toList.mpr hp.host, payload.val.state, m,
    payload.val.service, hm, fun s hs => isName_toList.mpr (hp.service s hs), rfl⟩

theorem hashedText_congr {e f : EventData} (h : SameSource e f) : hashedText f = hashedText e := by
  obtain ⟨h1, h2, h3, h4, h5⟩ := h
  rw [hashedText, hashedText, h1, h2, h3, h4, h5]

/-- Two readings of one text, where the text of one event has one reading. -/
theorem sameSource_of_text {f : EventData} (he : Unambiguous e.val)
    (hf : IsName f.sourceId.toList ∧ IsName f.host.toList ∧
      IsStateText (stateText f.eventType f.severity f.service))
    (h : hashedText f = hashedText e.val) : SameSource e.val f := by
  have htext := congrArg String.toList h.symm
  rw [toList_hashedText f] at htext
  have hstate := he.state _ _ htext ⟨_, _, hf.1, hf.2.1, rfl⟩ hf.2.2
  rw [hstate, toList_hashedText] at htext
  have hnames := List.append_cancel_right htext
  obtain ⟨htype, hseverity, hservice⟩ := stateText_injective hstate
  suffices hlen : e.val.sourceId.toList.length = f.sourceId.toList.length by
    obtain ⟨hsource, hhost⟩ := List.append_inj hnames hlen
    exact ⟨(String.toList_inj.mp hsource).symm,
      (String.toList_inj.mp (List.cons_eq_cons.mp hhost).2).symm, hservice, htype, hseverity⟩
  obtain ⟨r, hr, hb⟩ | ⟨r, hr, hb⟩ := List.append_eq_append_iff.mp hnames
  · cases r with
    | nil => rw [hr, List.append_nil]
    | cons c r =>
      obtain rfl := (List.cons_eq_cons.mp hb).1
      have hhost : e.val.host.toList = r ++ '|' :: f.host.toList := (List.cons_eq_cons.mp hb).2
      rcases he.host r f.host.toList hhost with hnil | hlong
      · have := hf.2.1.1
        rw [hnil] at this
        cases this
      · rw [← hr] at hlong
        have := hf.1.2
        omega
  · cases r with
    | nil => rw [hr, List.append_nil]
    | cons c r =>
      obtain rfl := (List.cons_eq_cons.mp hb).1
      have hhost : f.host.toList = r ++ '|' :: e.val.host.toList := (List.cons_eq_cons.mp hb).2
      rcases he.source f.sourceId.toList r hr with hnil | hlong
      · have := hf.1.1
        rw [hnil] at this
        cases this
      · rw [← hhost] at hlong
        have := hf.2.1.2
        omega

/-- **Fingerprints.**  An event has the fingerprint of exactly the events of its source, host,
service, type and severity, as far as the truncated digest separates the texts, if and only if its
text has no second reading. -/
theorem fingerprints_separate (h : processPayload sha256 payload = .ok (.event e)) :
    (∀ (payload' : Icinga2WebhookPayload) (f : NormalizedEvent),
      processPayload sha256 payload' = .ok (.event f) →
        (takeText 32 (sha256 (hashedText f.val)).val = takeText 32 (sha256 (hashedText e.val)).val →
          hashedText f.val = hashedText e.val) →
        (f.val.fingerprint = e.val.fingerprint ↔ SameSource e.val f.val)) ↔
      Unambiguous e.val := by
  have hfingerprint : ∀ {payload : Icinga2WebhookPayload} {e : NormalizedEvent},
      processPayload sha256 payload = .ok (.event e) →
        e.val.fingerprint = takeText 32 (sha256 (hashedText e.val)).val := by
    intro payload e h
    obtain ⟨-, m, -, heq⟩ := event_of_payload h
    rw [heq]
    rfl
  have hnames := isName_event h
  constructor
  · intro hall
    -- the event of another reading is the event itself
    have hread : ∀ {a b : List Char} {t : List Char}, IsName a → IsName b → IsStateText t →
        (hashedText e.val).toList = (a ++ '|' :: b) ++ '|' :: t →
        a = e.val.sourceId.toList ∧ b = e.val.host.toList ∧
          t = stateText e.val.eventType e.val.severity e.val.service := by
      rintro a b _ ha hb ⟨state, m, service, hm, hs, rfl⟩ htext
      obtain ⟨payload', f, hf, hsource, hhost, hservice, hseverity, htype⟩ :=
        exists_event (a := String.ofList a) (b := String.ofList b) h
          (by rwa [String.toList_ofList]) (by rwa [String.toList_ofList]) hs hm
      have hsame : hashedText f.val = hashedText e.val := by
        apply String.toList_inj.mp
        rw [toList_hashedText f.val, hsource, hhost, hservice, hseverity, htype,
          String.toList_ofList, String.toList_ofList, htext]
      have hprint : f.val.fingerprint = e.val.fingerprint := by
        rw [hfingerprint h, hfingerprint hf, hsame]
      obtain ⟨h1, h2, h3, h4, h5⟩ := (hall payload' f hf fun _ => hsame).mp hprint
      refine ⟨?_, ?_, ?_⟩
      · rw [← h1, hsource, String.toList_ofList]
      · rw [← h2, hhost, String.toList_ofList]
      · rw [← h3, ← h4, ← h5, hservice, hseverity, htype]
    refine ⟨fun a r hr => ?_, fun r b hb => ?_, fun u t htext hu ht => ?_⟩
    · by_contra hnot
      obtain ⟨hne, hle⟩ := not_or.mp hnot
      have ha : IsName a := by
        refine ⟨List.length_pos_iff.mpr hne, ?_⟩
        have hlen := hnames.1.2
        rw [hr, List.length_append] at hlen
        omega
      have hb : IsName (r ++ '|' :: e.val.host.toList) := by
        refine ⟨?_, not_lt.mp hle⟩
        rw [List.length_append, List.length_cons]
        omega
      obtain ⟨heq, -⟩ := hread ha hb hnames.2.2 (by
        rw [toList_hashedText, hr]
        simp only [List.append_assoc, List.cons_append])
      have hlen := congrArg List.length (heq.trans hr)
      rw [List.length_append, List.length_cons] at hlen
      omega
    · by_contra hnot
      obtain ⟨hne, hle⟩ := not_or.mp hnot
      have hb' : IsName b := by
        refine ⟨List.length_pos_iff.mpr hne, ?_⟩
        have hlen := hnames.2.1.2
        rw [hb, List.length_append, List.length_cons] at hlen
        omega
      have ha : IsName (e.val.sourceId.toList ++ '|' :: r) := by
        refine ⟨?_, not_lt.mp hle⟩
        rw [List.length_append, List.length_cons]
        omega
      obtain ⟨-, heq, -⟩ := hread ha hb' hnames.2.2 (by
        rw [toList_hashedText, hb]
        simp only [List.append_assoc, List.cons_append])
      have hlen := congrArg List.length (heq.trans hb)
      rw [List.length_append, List.length_cons] at hlen
      omega
    · obtain ⟨a, b, ha, hb, rfl⟩ := hu
      exact (hread ha hb ht htext).2.2
  · intro hone payload' f hf hinjective
    rw [hfingerprint h, hfingerprint hf]
    constructor
    · exact fun heq => sameSource_of_text hone (isName_event hf) (hinjective heq)
    · exact fun hsame => by rw [hashedText_congr hsame]

end

/-! ### Texts without other bars -/

theorem count_stateText (t : EventType) (s : Severity) (service : Option String) :
    (stateText t s service).count '|' =
      1 + service.elim 0 fun s => 1 + s.toList.count '|' := by
  have ht := List.count_eq_zero.mpr (bar_notMem_eventType t)
  have hs := List.count_eq_zero.mpr (bar_notMem_severity s)
  cases service with
  | none => simp [stateText, ht, hs]
  | some c => simp [stateText, ht, hs]; omega

/-- A state text does not begin with a severity. -/
theorem stateText_ne (t : EventType) (s s' : Severity) (service : Option String) (c : List Char) :
    stateText t s service ≠ s'.value.toList ++ '|' :: c := by
  intro h
  have heq := (append_bar_injective (bar_notMem_eventType t) (bar_notMem_severity s') rfl rfl h).1
  cases t <;> cases s' <;> exact absurd (String.toList_inj.mp heq) (by decide)

/-- Without a bar in its names an event has a text of one reading. -/
theorem unambiguous_of_notMem {e : EventData} (hsource : '|' ∉ e.sourceId.toList)
    (hhost : '|' ∉ e.host.toList) (hservice : ∀ s ∈ e.service, '|' ∉ s.toList) :
    Unambiguous e where
  source := fun a r hr => absurd (hr ▸ List.mem_append_right a List.mem_cons_self) hsource
  host := fun r b hb => absurd (hb ▸ List.mem_append_right r List.mem_cons_self) hhost
  state := by
    rintro _ _ htext ⟨a, b, -, -, rfl⟩ ⟨_, m, service, -, -, rfl⟩
    rw [toList_hashedText] at htext
    obtain ⟨x, hx, hrest⟩ | ⟨x, hx, hrest⟩ := List.append_eq_append_iff.mp htext
    · cases x with
      | nil => exact ((List.cons_eq_cons.mp hrest).2).symm
      | cons c x =>
        -- the other state begins inside the event's
        have hstate : stateText e.eventType e.severity e.service =
            x ++ '|' :: stateText m.2 m.1 service := (List.cons_eq_cons.mp hrest).2
        have hcount := congrArg (List.count '|') hstate
        rw [List.count_append, List.count_cons_self, count_stateText, count_stateText] at hcount
        cases hs : e.service with
        | none =>
          rw [hs, Option.elim_none] at hcount
          omega
        | some s =>
          have hzero := List.count_eq_zero.mpr (hservice s hs)
          rw [hs, Option.elim_some, hzero] at hcount
          have hx : '|' ∉ x := List.count_eq_zero.mp (by omega)
          rw [hs] at hstate
          obtain ⟨-, hseverity⟩ :=
            append_bar_injective (bar_notMem_eventType _) hx rfl rfl hstate
          exact absurd (List.cons_eq_cons.mp hseverity).2.symm (stateText_ne _ _ _ _ _)
    · cases x with
      | nil => exact (List.cons_eq_cons.mp hrest).2
      | cons c x =>
        obtain rfl := (List.cons_eq_cons.mp hrest).1
        have hcount := congrArg (List.count '|') hx
        have h1 := List.count_eq_zero.mpr hsource
        have h2 := List.count_eq_zero.mpr hhost
        simp only [List.count_append, List.count_cons_self, h1, h2] at hcount
        omega

/-! ### Samples -/

/-- A host check of the sample source, with this source and host. -/
def hostFields (sourceId host : String) : PayloadFields :=
  { sampleFields "timeout" with sourceId := sourceId, host := host, service := none, state := "DOWN" }

/-- The event of such a check. -/
theorem hostFields_event (sha256 : String → HexDigest) (payload : Icinga2WebhookPayload)
    {sourceId host : String} (h : payload.val = hostFields sourceId host) :
    ∃ e : NormalizedEvent, processPayload sha256 payload = .ok (.event e) ∧
      e.val = eventData sha256 (hostFields sourceId host) .critical .problem := by
  have hvalid : (eventData sha256 payload.val .critical .problem).errors = [] :=
    (eventData_errors sha256 payload _ _).mpr (by rw [h]; exact (by decide : "timeout".length ≤ 4096))
  have hhard : payload.val.stateType = .hard := by
    rw [h]
    rfl
  have hmap : mapIcingaState payload.val.state payload.val.service.isNone =
      .ok (.critical, .problem) := by
    rw [h]
    exact (rfl : mapIcingaState "DOWN" true = .ok (.critical, .problem))
  exact ⟨⟨_, hvalid⟩, (processPayload_hard hhard).mpr ⟨_, hmap, _, rfl, rfl⟩,
    congrArg (fun p => eventData sha256 p .critical .problem) h⟩

/-- Two hosts of two sources, with one fingerprint. -/
theorem fingerprints_collide :
    ∃ payload payload' : Icinga2WebhookPayload,
      payload.val = hostFields "mon|eu" "db" ∧ payload'.val = hostFields "mon" "eu|db" ∧
        ∀ sha256, ∃ e f : NormalizedEvent, processPayload sha256 payload = .ok (.event e) ∧
          processPayload sha256 payload' = .ok (.event f) ∧
          f.val.fingerprint = e.val.fingerprint ∧ f.val.host ≠ e.val.host := by
  have herrors : (hostFields "mon|eu" "db").errors.isEmpty = true ∧
      (hostFields "mon" "eu|db").errors.isEmpty = true := by decide +kernel
  refine ⟨⟨_, List.isEmpty_iff.mp herrors.1⟩, ⟨_, List.isEmpty_iff.mp herrors.2⟩, rfl, rfl,
    fun sha256 => ?_⟩
  obtain ⟨e, he, heq⟩ := hostFields_event sha256 ⟨_, List.isEmpty_iff.mp herrors.1⟩ rfl
  obtain ⟨f, hf, hfeq⟩ := hostFields_event sha256 ⟨_, List.isEmpty_iff.mp herrors.2⟩ rfl
  have htexts : "|".intercalate ["mon|eu", "db", "PROBLEM", "CRITICAL"] =
      "|".intercalate ["mon", "eu|db", "PROBLEM", "CRITICAL"] := by decide
  refine ⟨e, f, he, hf, ?_, ?_⟩
  · rw [heq, hfeq]
    exact congrArg (fun t => takeText 32 (sha256 t).val) htexts.symm
  · rw [heq, hfeq]
    exact (by decide : "eu|db" ≠ "db")

theorem fingerprints_separate_sample :
    ∃ e : NormalizedEvent,
      processPayload sampleSha256 (samplePayload "timeout" (by decide)) = .ok (.event e) ∧
      ∀ payload' (f : NormalizedEvent), processPayload sampleSha256 payload' = .ok (.event f) →
        hashedText f.val = hashedText e.val →
          (f.val.fingerprint = e.val.fingerprint ↔ SameSource e.val f.val) := by
  have hvalid := (eventData_errors sampleSha256 (samplePayload "timeout" (by decide))
    .critical .problem).mpr (by decide : "timeout".length ≤ 4096)
  have hevent : processPayload sampleSha256 (samplePayload "timeout" (by decide)) =
      .ok (.event ⟨_, hvalid⟩) :=
    (processPayload_hard rfl).mpr ⟨(.critical, .problem), rfl, _, rfl, rfl⟩
  refine ⟨_, hevent, fun payload' f hf htext => ?_⟩
  refine (fingerprints_separate hevent).mpr ?_ payload' f hf fun _ => htext
  refine unambiguous_of_notMem ?_ ?_ ?_
  · exact (by decide : '|' ∉ "mon".toList)
  · exact (by decide : '|' ∉ "web-1".toList)
  · rintro s ⟨⟩
    exact (by decide : '|' ∉ "http".toList)

end Correlia
