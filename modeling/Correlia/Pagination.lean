import Correlia.Invariant
import Correlia.Lib.Keyset
import Correlia.Persistence.Listing

/-!
# Pagination — following `next_cursor` enumerates the matching rows

Both list queries are keyset pages over `(timestamp, id)` (`Listing.page_spec`), so the walk from the
first request ends and visits every row then present exactly once, unless the database refuses a value
of the filters: then there is no first page.
-/

namespace Correlia

open Lib

/-! ### The cursor codec -/

/-- The readers read back what was written for this cursor. -/
structure CursorReaders.RoundTrip (readers : CursorReaders) (timeKey : String)
    (cursor : PageCursor) : Prop where
  json : readers.jsonLoads (cursorText timeKey cursor) =
    some (.object [(timeKey, .string cursor.timestamp.isoformat),
      ("id", .string (uuidText cursor.id))])
  timestamp : readers.fromisoformat cursor.timestamp.isoformat = some (.aware cursor.timestamp)
  id : readers.parseUuid (uuidText cursor.id) = some cursor.id

theorem decodeCursor_encodeCursor (strict : Bool) {timeKey : String} (hkey : timeKey ≠ "id")
    {readers : CursorReaders} {cursor : PageCursor} (h : readers.RoundTrip timeKey cursor) :
    decodeCursor strict timeKey readers (encodeCursor timeKey cursor) = .ok cursor := by
  unfold decodeCursor encodeCursor
  rw [String.toList_ofList, b64decode_b64encode]
  simp only [orThrow, ok_bind, utf8Text_utf8Bytes, h.json, payloadItem, getItem_cons, if_neg hkey,
    if_true, cursorTimestamp, h.timestamp, cursorUuid, h.id]
  rfl

/-- A character that a JSON string writes as one byte. -/
def Plain (c : Char) : Prop := Json.escapeChar c = [c] ∧ c.utf8Size = 1

theorem isoChars_plain : ∀ c ∈ Datetime.isoChars, Plain c := by
  intro c hc
  unfold Plain
  fin_cases hc <;> decide

theorem hexChars_plain : ∀ c ∈ hexChars, Plain c := by
  intro c hc
  unfold Plain
  fin_cases hc <;> decide

theorem uuidText_plain (n : ℕ) : ∀ c ∈ (uuidText n).toList, Plain c := by
  have hfield : ∀ w n, ∀ c ∈ hexField w n, Plain c := fun w n c hc =>
    hexChars_plain c (hexField_subset w n c hc)
  have hdash : Plain '-' := isoChars_plain _ (by decide)
  intro c hc
  simp only [uuidText, String.toList_ofList, List.mem_append, List.mem_singleton] at hc
  rcases hc with (((((((h | rfl) | h) | rfl) | h) | rfl) | h) | rfl) | h
  all_goals first
    | exact hdash
    | exact hfield _ _ c h

theorem stringText_plain {s : String} (h : ∀ c ∈ s.toList, Plain c) :
    Json.stringText s = ['"'] ++ s.toList ++ ['"'] := by
  have hflat : s.toList.flatMap Json.escapeChar = s.toList := by
    rw [List.flatMap_congr fun c hc => (h c hc).1]
    exact List.flatMap_singleton' _
  rw [Json.stringText, hflat]

theorem utf8Bytes_length {l : List Char} (h : ∀ c ∈ l, c.utf8Size = 1) :
    (utf8Bytes (String.ofList l)).length = l.length := by
  rw [length_utf8Bytes, byteLength, List.map_congr_left h]
  simp

/-- A cursor is short enough to be sent back. -/
theorem encodeCursor_length {timeKey : String} (hkey : ∀ c ∈ timeKey.toList, Plain c)
    (hlen : timeKey.length ≤ 256) (cursor : PageCursor) :
    1 ≤ (encodeCursor timeKey cursor).length ∧ (encodeCursor timeKey cursor).length ≤ 512 := by
  have hid : ∀ c ∈ "id".toList, Plain c := by
    intro c hc
    unfold Plain
    fin_cases hc <;> decide
  have hiso : ∀ c ∈ cursor.timestamp.isoformat.toList, Plain c := fun c hc =>
    isoChars_plain c (Datetime.isoformat_chars _ c hc)
  obtain ⟨h25, h42⟩ := Datetime.isoformat_length cursor.timestamp
  have h36 := uuidText_length cursor.id
  have hbytes : (utf8Bytes (cursorText timeKey cursor)).length =
      timeKey.length + cursor.timestamp.isoformat.length + 51 := by
    unfold cursorText
    rw [stringText_plain hkey, stringText_plain hiso, stringText_plain hid,
      stringText_plain (uuidText_plain _), utf8Bytes_length]
    · simp only [List.length_append, List.length_cons, List.length_nil, String.length_toList, h36]
      have h2 : "id".length = 2 := rfl
      omega
    · simp only [List.forall_mem_append, List.forall_mem_singleton]
      exact ⟨⟨⟨⟨⟨⟨⟨⟨rfl, ⟨rfl, fun c hc => (hkey c hc).2⟩, rfl⟩, rfl⟩,
        ⟨rfl, fun c hc => (hiso c hc).2⟩, rfl⟩, rfl⟩, ⟨rfl, fun c hc => (hid c hc).2⟩, rfl⟩, rfl⟩,
        ⟨rfl, fun c hc => (uuidText_plain _ c hc).2⟩, rfl⟩, rfl⟩
  have := stripPadding_length (utf8Bytes (cursorText timeKey cursor))
  rw [encodeCursor, String.length_ofList]
  omega

/-! ### A list query is a keyset page -/

instance : WellFoundedLT (Timestamptz ×ₗ UUID) := by
  have : Finite Timestamptz := (Set.finite_Ico (0 : ℤ) datetimeEnd).to_subtype
  have : Finite (Timestamptz ×ₗ UUID) := inferInstanceAs (Finite (Timestamptz × UUID))
  exact Finite.to_wellFoundedLT

namespace Listing

variable {α β : Type} (listing : Listing α β) {filters : Parameters}

/-- The cursor reads back, and means this key. -/
def Means (value : String) (k : Timestamptz ×ₗ UUID) : Prop :=
  (1 ≤ value.length ∧ value.length ≤ 512) ∧
    ∃ cursor, listing.decode value = .ok cursor ∧
      cursor.timestamp.instant = (ofLex k).1.val ∧ cursor.id = (ofLex k).2

/-- The codec gives back the cursor of this row. -/
def Codec (r : α) : Prop :=
  (1 ≤ (listing.encode (listing.cursorOf r)).length ∧
    (listing.encode (listing.cursorOf r)).length ≤ 512) ∧
    listing.decode (listing.encode (listing.cursorOf r)) = .ok (listing.cursorOf r)

theorem means_of_codec {r : α} (h : listing.Codec r) :
    listing.Means (listing.encode (listing.cursorOf r)) (listing.key r) :=
  ⟨h.1, _, h.2, Timestamptz.toDatetime_instant _, rfl⟩

theorem beforeCursor_iff {cursor : PageCursor} {k : Timestamptz ×ₗ UUID}
    (ht : cursor.timestamp.instant = (ofLex k).1.val) (hid : cursor.id = (ofLex k).2) (r : α) :
    listing.beforeCursor cursor r = true ↔ listing.key r < k := by
  rw [beforeCursor, ht, hid, Prod.Lex.lt_iff]
  simp only [Bool.or_eq_true, Bool.and_eq_true, decide_eq_true_eq, key, ofLex_toLex]
  rw [← Subtype.ext_iff]
  exact Iff.rfl

theorem ordered_eq (rows : List α) : listing.ordered rows = below listing.key none rows := by
  rw [ordered, below, List.filter_eq_self.mpr (by simp)]

theorem ordered_before {cursor : PageCursor} {k : Timestamptz ×ₗ UUID}
    (ht : cursor.timestamp.instant = (ofLex k).1.val) (hid : cursor.id = (ofLex k).2)
    (rows : List α) :
    listing.ordered (rows.filter (listing.beforeCursor cursor)) =
      below listing.key (some k) rows := by
  rw [ordered, below]
  congr 1
  refine List.filter_congr fun r _ => ?_
  rw [Bool.eq_iff_iff, beforeCursor_iff listing ht hid, decide_eq_true_eq]
  simp

/-- What a query that looks one row ahead gives of these rows in order. -/
theorem lookAhead_page {limit total : ℕ} {rows all : List α}
    {after : Option (Timestamptz ×ₗ UUID)} (h : listing.ordered rows = below listing.key after all)
    (hcodec : ∀ r ∈ all, listing.Codec r) :
    (listing.lookAhead limit total rows).rows =
        (keysetPage listing.key limit after all).rows.map listing.project ∧
      Option.Rel listing.Means (listing.lookAhead limit total rows).nextCursor
        (keysetPage listing.key limit after all).next := by
  unfold lookAhead keysetPage
  rw [h]
  refine ⟨rfl, ?_⟩
  dsimp only
  by_cases hlen : limit < ((below listing.key after all).take (limit + 1)).length
  · rw [if_pos hlen, if_pos hlen]
    cases hlast : (((below listing.key after all).take (limit + 1)).take limit).getLast? with
    | none => exact Option.Rel.none
    | some last =>
      have hmem : last ∈ below listing.key after all :=
        List.mem_of_mem_take (List.mem_of_mem_take (List.mem_of_getLast? hlast))
      exact Option.Rel.some (listing.means_of_codec (hcodec last (mem_below.mp hmem).1))
  · rw [if_neg hlen, if_neg hlen]
    exact Option.Rel.none

/-- Filters that the database refuses have no page. -/
theorem page_encodable {limit : ℕ} {cursor : Option String} {offset : Option ℤ} {rows : List α}
    {p : ListPage β} (h : listing.page filters limit cursor offset rows = .ok p) :
    filters.Encodable := by
  obtain ⟨u, hu, -⟩ := bind_eq_ok.mp h
  exact Parameters.bind_eq_ok.mp hu

theorem page_of_encodable (h : filters.Encodable) (limit : ℕ) (cursor : Option String)
    (offset : Option ℤ) (rows : List α) :
    listing.page filters limit cursor offset rows = listing.select limit cursor offset rows := by
  rw [page, (Parameters.bind_eq_ok (u := ())).mpr h, ok_bind]

/-- A request, with or without a cursor, is answered by a keyset page. -/
theorem page_spec (hfilters : filters.Encodable) {limit : ℕ} {rows : List α}
    (hcodec : ∀ r ∈ rows, listing.Codec r)
    {cursor : Option String} {after : Option (Timestamptz ×ₗ UUID)}
    (hc : Option.Rel listing.Means cursor after) :
    ∃ p, listing.page filters limit cursor none rows = .ok p ∧
      p.rows = (keysetPage listing.key limit after rows).rows.map listing.project ∧
      Option.Rel listing.Means p.nextCursor (keysetPage listing.key limit after rows).next := by
  rw [listing.page_of_encodable hfilters]
  cases hc with
  | none => exact ⟨_, rfl, listing.lookAhead_page (listing.ordered_eq rows) hcodec⟩
  | @some value k hmeans =>
    obtain ⟨-, cursor, hdecode, ht, hid⟩ := hmeans
    -- the timestamp of a row has an instant in UTC
    have hbind : Parameters.bind { timestamps := [cursor.timestamp] } = .ok () := by
      refine Parameters.bind_eq_ok.mpr (Parameters.encodable_timestamp.mpr ?_)
      rw [Datetime.toTimestamptz_eq_some.mpr ht]
      exact Option.some_ne_none _
    have hpage : listing.select limit (some value) none rows = .ok
        (listing.lookAhead limit rows.length (rows.filter (listing.beforeCursor cursor))) := by
      unfold select
      dsimp only
      rw [hdecode, liftError, ok_bind, hbind, ok_bind]
      rfl
    exact ⟨_, hpage, listing.lookAhead_page (listing.ordered_before ht hid rows) hcodec⟩

/-- The total counts the matching rows, and a next cursor is one of theirs. -/
theorem page_total {limit : ℕ} {rows : List α} {cursor : Option String} {offset : Option ℤ}
    {p : ListPage β} (h : listing.page filters limit cursor offset rows = .ok p) :
    p.total = rows.length ∧
      ∀ c ∈ p.nextCursor, ∃ r ∈ rows, c = listing.encode (listing.cursorOf r) := by
  have hahead : ∀ {some : List α}, some ⊆ rows →
      ∀ c ∈ (listing.lookAhead limit rows.length some).nextCursor,
        ∃ r ∈ rows, c = listing.encode (listing.cursorOf r) := by
    intro some hsub c hc
    unfold lookAhead at hc
    dsimp only at hc
    by_cases hlen : limit < ((listing.ordered some).take (limit + 1)).length
    · rw [if_pos hlen] at hc
      obtain ⟨last, hlast, rfl⟩ := Option.map_eq_some_iff.mp hc
      have hmem := List.mem_of_mem_take (List.mem_of_mem_take (List.mem_of_getLast? hlast))
      exact ⟨last, hsub (mem_sortBy.mp hmem), rfl⟩
    · rw [if_neg hlen] at hc
      cases hc
  rw [listing.page_of_encodable (listing.page_encodable h)] at h
  unfold select at h
  cases cursor with
  | some value =>
    obtain ⟨cursor, -, h⟩ := bind_eq_ok.mp h
    obtain ⟨u, -, h⟩ := bind_eq_ok.mp h
    cases h
    exact ⟨rfl, hahead List.filter_sublist.subset⟩
  | none =>
    cases offset with
    | some offset =>
      dsimp only at h
      split_ifs at h
      cases h
      exact ⟨rfl, fun c hc => by cases hc⟩
    | none =>
      cases h
      exact ⟨rfl, hahead (List.Subset.refl _)⟩

/-- What the pages of a walk amount to, when request `i` finds the rows `matching i`. -/
structure Enumeration (matching : ℕ → List α) (pages : List (ListPage β)) : Prop where
  rows : ∃ seen : List α, pages.flatMap ListPage.rows = seen.map listing.project ∧
    seen.Pairwise (fun a b => listing.key b < listing.key a) ∧ (∀ r ∈ matching 0, r ∈ seen) ∧
    ∀ r ∈ seen, ∃ i, r ∈ matching i
  total : ∀ i p, pages[i]? = some p → p.total = (matching i).length
  cursors : ∀ p ∈ pages, ∀ c ∈ p.nextCursor, ∃ i, ∃ r ∈ matching i,
    c = listing.encode (listing.cursorOf r) ∧ listing.decode c = .ok (listing.cursorOf r)

/-- A list service that hands a valid request to the query. -/
structure Serves {ε : Type} (filters : Parameters) (limit : ℕ → ℕ) (matching : ℕ → List α)
    (fetch : ℕ → Option String → Except ε (ListPage β)) : Prop where
  iff : ∀ i cursor p, fetch i cursor = .ok p ↔
    (∀ c ∈ cursor, 1 ≤ c.length ∧ c.length ≤ 512) ∧
      listing.page filters (limit i) cursor none (matching i) = .ok p

/-- Following `next_cursor` from the first request ends, with pages that enumerate. -/
def Enumerates {ε : Type} (matching : ℕ → List α)
    (fetch : ℕ → Option String → Except ε (ListPage β)) : Prop :=
  ∃ pages, Walk fetch ListPage.nextCursor 0 none pages ∧
    (∀ pages', Walk fetch ListPage.nextCursor 0 none pages' → pages' = pages) ∧
    listing.Enumeration matching pages

/-- Without a first page there is no walk. -/
theorem Enumerates.encodable {ε : Type} {limit : ℕ → ℕ} {matching : ℕ → List α}
    {fetch : ℕ → Option String → Except ε (ListPage β)} (hwalk : listing.Enumerates matching fetch)
    (h : listing.Serves filters limit matching fetch) : filters.Encodable := by
  obtain ⟨pages, hpages, -, -⟩ := hwalk
  have hfirst : ∃ p, fetch 0 none = .ok p := by
    cases hpages with
    | last hp => exact ⟨_, hp⟩
    | more hp => exact ⟨_, hp⟩
  obtain ⟨p, hp⟩ := hfirst
  exact listing.page_encodable ((h.iff 0 none p).mp hp).2

theorem enumeration {ε : Type} {limit : ℕ → ℕ} {matching : ℕ → List α}
    {fetch : ℕ → Option String → Except ε (ListPage β)}
    (h : listing.Serves filters limit matching fetch) (hfilters : filters.Encodable)
    (hlimit : ∀ i, 1 ≤ limit i) (hids : ∀ i, ((matching i).map listing.id).Nodup)
    (hgrow : ∀ i, ∀ r ∈ matching i, r ∈ matching (i + 1))
    (hcodec : ∀ i, ∀ r ∈ matching i, listing.Codec r) : listing.Enumerates matching fetch := by
  have hpages : Pages listing.key listing.project matching limit ListPage.rows listing.Means fetch
      ListPage.nextCursor := by
    refine ⟨hlimit, fun i => ?_, hgrow, fun i cursor after hc => ?_⟩
    · refine List.Nodup.of_map (fun k => (ofLex k).2) ?_
      rw [List.map_map]
      exact hids i
    · obtain ⟨p, hp, hrows, hnext⟩ := listing.page_spec hfilters (hcodec i) hc
      refine ⟨p, (h.iff i cursor p).mpr ⟨?_, hp⟩, hrows, hnext⟩
      intro c hmem
      cases hc with
      | none => cases hmem
      | some hmeans =>
        rw [Option.mem_some_iff] at hmem
        exact hmem ▸ hmeans.1
  obtain ⟨pages, seen, hwalk, hrows, hvisits⟩ := walk_pages hpages
  have hpage : ∀ i p, pages[i]? = some p → ∃ cursor,
      listing.page filters (limit i) cursor none (matching i) = .ok p := by
    intro i p hp
    obtain ⟨cursor, hfetch⟩ := hwalk.request hp
    rw [Nat.zero_add] at hfetch
    exact ⟨cursor, ((h.iff i cursor p).mp hfetch).2⟩
  refine ⟨pages, hwalk, fun pages' h' => h'.unique hwalk, ⟨seen, hrows, hvisits.desc, ?_, hvisits.present⟩, ?_, ?_⟩
  · exact fun r hr => hvisits.all r hr fun k hk => by cases hk
  · intro i p hp
    obtain ⟨cursor, hok⟩ := hpage i p hp
    exact (listing.page_total hok).1
  · intro p hp c hc
    obtain ⟨i, hi⟩ := List.mem_iff_getElem?.mp hp
    obtain ⟨cursor, hok⟩ := hpage i p hi
    obtain ⟨r, hr, rfl⟩ := (listing.page_total hok).2 c hc
    exact ⟨i, r, hr, rfl, (hcodec i r hr).2⟩

end Listing

/-! ### Requests -/

inductive ListFailure
  | validation (errors : List FieldError)
  | query (e : ListError)
deriving DecidableEq

/-- A request for a page of incidents: its filters, checked, then the query. -/
def requestIncidents (readers : CursorReaders) (filters : IncidentFilterFields) (limit : ℤ)
    (cursor : Option String) (t : List Incident) :
    Except ListFailure (ListPage ListedIncident) := do
  let checked ← liftError .validation (modelValidate IncidentFilterFields.errors
    { filters with limit, cursor, offset := none })
  liftError .query (listIncidents readers checked t)

/-- A request for a page of audit events. -/
def requestIncidentEvents (readers : CursorReaders) (filters : AuditFilterFields) (limit : ℤ)
    (cursor : Option String) (events : List IncidentEvent) :
    Except ListFailure (ListPage AuditEventListRow) := do
  let checked ← liftError .validation (modelValidate AuditFilterFields.errors
    { filters with limit, cursor, offset := none })
  liftError .query (listIncidentEvents readers checked events)

theorem pageErrors_request {limit : ℤ} (hlimit : 1 ≤ limit ∧ limit ≤ 200) {cursor : Option String} :
    pageErrors limit cursor none = [] ↔ ∀ c ∈ cursor, 1 ≤ c.length ∧ c.length ≤ 512 := by
  rw [pageErrors_eq_nil]
  exact ⟨fun h => h.2.1, fun h => ⟨hlimit, h, by simp⟩⟩

/-- A request succeeds where its filters pass their checks and the query succeeds. -/
theorem request_eq_ok {γ π : Type} {errors : γ → List FieldError} {d : γ}
    {query : Checked errors → Except ListError π} {p : π} :
    (liftError ListFailure.validation (modelValidate errors d) >>= fun checked =>
        liftError ListFailure.query (query checked)) = .ok p ↔
      ∃ h : errors d = [], query ⟨d, h⟩ = .ok p := by
  rw [bind_eq_ok]
  constructor
  · rintro ⟨checked, hchecked, hquery⟩
    rw [liftError_eq_ok] at hchecked hquery
    obtain rfl := modelValidate_eq_ok.mp hchecked
    exact ⟨checked.valid, hquery⟩
  · rintro ⟨h, hquery⟩
    exact ⟨⟨d, h⟩, liftError_eq_ok.mpr (modelValidate_of_valid h), liftError_eq_ok.mpr hquery⟩

theorem requestIncidents_serves (readers : CursorReaders) (filters : IncidentListFilters)
    (t : List Incident) {limit : ℕ → ℤ} (hlimit : ∀ i, 1 ≤ limit i ∧ limit i ≤ 200) :
    (incidentListing readers).Serves filters.val.parameters (fun i => (limit i).toNat)
      (fun _ => t.filter filters.val.matches)
      fun i cursor => requestIncidents readers filters.val (limit i) cursor t := by
  refine ⟨fun i cursor p => request_eq_ok.trans ?_⟩
  have herrors : IncidentFilterFields.errors
        { filters.val with limit := limit i, cursor, offset := none } = [] ↔
      ∀ c ∈ cursor, 1 ≤ c.length ∧ c.length ≤ 512 := by
    have hbase := filters.valid
    unfold IncidentFilterFields.errors at hbase ⊢
    rw [List.append_eq_nil_iff] at hbase ⊢
    rw [pageErrors_request (hlimit i)]
    exact ⟨fun h => h.2, fun h => ⟨hbase.1, h⟩⟩
  exact ⟨fun ⟨h, hp⟩ => ⟨herrors.mp h, hp⟩, fun ⟨h, hp⟩ => ⟨herrors.mpr h, hp⟩⟩

theorem requestIncidentEvents_serves (readers : CursorReaders) (filters : AuditEventListFilters)
    (events : ℕ → List IncidentEvent) {limit : ℕ → ℤ} (hlimit : ∀ i, 1 ≤ limit i ∧ limit i ≤ 200) :
    (auditListing readers).Serves filters.val.parameters (fun i => (limit i).toNat)
      (fun i => (events i).filter filters.val.matches)
      fun i cursor => requestIncidentEvents readers filters.val (limit i) cursor (events i) := by
  refine ⟨fun i cursor p => request_eq_ok.trans ?_⟩
  have herrors : AuditFilterFields.errors
        { filters.val with limit := limit i, cursor, offset := none } = [] ↔
      ∀ c ∈ cursor, 1 ≤ c.length ∧ c.length ≤ 512 := by
    have hbase := filters.valid
    unfold AuditFilterFields.errors at hbase ⊢
    rw [List.append_eq_nil_iff] at hbase ⊢
    rw [pageErrors_request (hlimit i)]
    exact ⟨fun h => h.2, fun h => ⟨hbase.1, h⟩⟩
  exact ⟨fun ⟨h, hp⟩ => ⟨herrors.mp h, hp⟩, fun ⟨h, hp⟩ => ⟨herrors.mpr h, hp⟩⟩

/-! ### The two lists -/

theorem incident_codec {readers : CursorReaders} {r : Incident}
    (h : readers.RoundTrip "last_update_time" ((incidentListing readers).cursorOf r)) :
    (incidentListing readers).Codec r := by
  refine ⟨encodeCursor_length ?_ (by decide) _, decodeCursor_encodeCursor _ (by decide) h⟩
  intro c hc
  unfold Plain
  fin_cases hc <;> decide

theorem audit_codec {readers : CursorReaders} {r : IncidentEvent}
    (h : readers.RoundTrip "accepted_at" ((auditListing readers).cursorOf r)) :
    (auditListing readers).Codec r := by
  refine ⟨encodeCursor_length ?_ (by decide) _, decodeCursor_encodeCursor _ (by decide) h⟩
  intro c hc
  unfold Plain
  fin_cases hc <;> decide

/-- **Pagination enumerates exactly.**  Whatever the page limits, and for exactly the filters whose
values the database takes, following `next_cursor` from the first request ends, and the pages hold
every matching row once, newest first, each with the number of matching rows as its total; for audit
events also when rows are added between the requests, of the rows present at the first. -/
theorem pagination (readers : CursorReaders) (limit : ℕ → ℤ)
    (hlimit : ∀ i, 1 ≤ limit i ∧ limit i ≤ 200) :
    (∀ (filters : IncidentListFilters) (t : List Incident), (t.map Incident.id).Nodup →
      (∀ r ∈ t, readers.RoundTrip "last_update_time" ((incidentListing readers).cursorOf r)) →
      ((incidentListing readers).Enumerates (fun _ => t.filter filters.val.matches)
        (fun i cursor => requestIncidents readers filters.val (limit i) cursor t) ↔
          filters.val.parameters.Encodable)) ∧
    ∀ (filters : AuditEventListFilters) (events : ℕ → List IncidentEvent),
      (∀ i, ((events i).map IncidentEvent.id).Nodup) →
      (∀ i, ∀ r ∈ events i, r ∈ events (i + 1)) →
      (∀ i, ∀ r ∈ events i,
        readers.RoundTrip "accepted_at" ((auditListing readers).cursorOf r)) →
      ((auditListing readers).Enumerates (fun i => (events i).filter filters.val.matches)
        (fun i cursor => requestIncidentEvents readers filters.val (limit i) cursor (events i)) ↔
          filters.val.parameters.Encodable) := by
  have hpos : ∀ i, 1 ≤ (limit i).toNat := fun i => by
    have := (hlimit i).1
    omega
  constructor
  · intro filters t hids hcodec
    have hserves := requestIncidents_serves readers filters t hlimit
    refine ⟨fun h => h.encodable _ hserves, fun hfilters => ?_⟩
    refine (incidentListing readers).enumeration hserves hfilters hpos ?_ (fun _ r hr => hr) ?_
    · exact fun _ => hids.sublist (List.filter_sublist.map _)
    · exact fun _ r hr => incident_codec (hcodec r (List.mem_of_mem_filter hr))
  · intro filters events hids hgrow hcodec
    have hserves := requestIncidentEvents_serves readers filters events hlimit
    refine ⟨fun h => h.encodable _ hserves, fun hfilters => ?_⟩
    refine (auditListing readers).enumeration hserves hfilters hpos ?_ ?_ ?_
    · exact fun i => (hids i).sublist (List.filter_sublist.map _)
    · intro i r hr
      obtain ⟨hmem, hmatch⟩ := List.mem_filter.mp hr
      exact List.mem_filter.mpr ⟨hgrow i r hmem, hmatch⟩
    · exact fun i r hr => audit_codec (hcodec i r (List.mem_of_mem_filter hr))

/-! ### Filters with no row and no page -/

def sinceFirstMidnight : IncidentListFilters := ⟨{ updatedSince := some firstMidnight }, by decide⟩

/-- The host is U+0000. -/
def hostNul : AuditEventListFilters := ⟨{ host := some "\x00" }, by decide⟩

/-! ### Two rows of one instant -/

def sampleCursor (id : UUID) : PageCursor := ⟨(sampleTime 0).toDatetime, id⟩

/-- What the two readers make of the text of this cursor. -/
def sampleJson (timeKey : String) (id : UUID) : Json :=
  .object [(timeKey, .string (sampleCursor id).timestamp.isoformat), ("id", .string (uuidText id))]

/-- Readers that know the texts of the sample cursors. -/
def sampleReaders : CursorReaders where
  jsonLoads text :=
    if text = cursorText "last_update_time" (sampleCursor 1) then
      some (sampleJson "last_update_time" 1)
    else if text = cursorText "last_update_time" (sampleCursor 2) then
      some (sampleJson "last_update_time" 2)
    else if text = cursorText "accepted_at" (sampleCursor 1) then some (sampleJson "accepted_at" 1)
    else if text = cursorText "accepted_at" (sampleCursor 2) then some (sampleJson "accepted_at" 2)
    else none
  fromisoformat text :=
    if text = (sampleTime 0).toDatetime.isoformat then some (.aware (sampleTime 0).toDatetime)
    else none
  parseUuid text :=
    if text = uuidText (1 : UUID) then some 1
    else if text = uuidText (2 : UUID) then some 2
    else none

def sampleWindow : WindowStateJson :=
  ⟨⟨(sampleTime 0).toDatetime.dump, (sampleTime 60).toDatetime.dump, 60, 1, Dict.empty, 0, 1, []⟩,
    by decide⟩

def sampleIncident (id : UUID) : Incident :=
  { id, ruleName := "disk", groupKey := "host=db1", status := .«open», severity := .warning
    summary := "disk full on db1", eventCount := 1, affectedHosts := ["db1"]
    affectedServices := [], decisionContext := {}, windowState := sampleWindow
    thresholdCrossed := false, notifiedAt := none, startTime := sampleTime 0
    lastUpdateTime := sampleTime 0, acknowledgedAt := none, acknowledgedBy := none
    resolvedAt := none, closedAt := none, createdAt := sampleTime 0, updatedAt := sampleTime 0 }

def sampleIncidentEvent (id : UUID) : IncidentEvent :=
  { id, acceptedAt := sampleTime 0, eventTimestamp := sampleTime 0, sourceId := "icinga"
    fingerprint := "f", eventType := .problem, severity := .warning, host := "db1"
    service := none, incidentIds := [], incidentEffect := .none, decisionSummary := emptyPayload
    normalizedEvent := emptyPayload, rawPayload := [], rawPayloadOriginalByteLength := 2
    rawPayloadStoredByteLength := 2, rawPayloadTruncated := false, redactionVersion := 2
    redactedPathCount := 0, rawPayloadHmac := HexDigest.ofNat 0 }

theorem sampleReaders_roundTrip (id : UUID) (hid : id = 1 ∨ id = 2) :
    sampleReaders.RoundTrip "last_update_time" (sampleCursor id) ∧
      sampleReaders.RoundTrip "accepted_at" (sampleCursor id) := by
  have hids : uuidText (2 : UUID) ≠ uuidText (1 : UUID) := by decide +kernel
  have htexts : [cursorText "last_update_time" (sampleCursor 1),
      cursorText "last_update_time" (sampleCursor 2), cursorText "accepted_at" (sampleCursor 1),
      cursorText "accepted_at" (sampleCursor 2)].Nodup := by decide +kernel
  simp only [List.nodup_cons, List.mem_cons, List.not_mem_nil, or_false, not_or] at htexts
  obtain ⟨⟨h12, h13, h14⟩, ⟨h23, h24⟩, h34, -⟩ := htexts
  have hiso : sampleReaders.fromisoformat (sampleTime 0).toDatetime.isoformat =
      some (.aware (sampleTime 0).toDatetime) := by
    unfold sampleReaders
    dsimp only
    rw [if_pos rfl]
  have hfirst : sampleReaders.parseUuid (uuidText (1 : UUID)) = some 1 := by
    unfold sampleReaders
    dsimp only
    rw [if_pos rfl]
  have hsecond : sampleReaders.parseUuid (uuidText (2 : UUID)) = some 2 := by
    unfold sampleReaders
    dsimp only
    rw [if_neg hids, if_pos rfl]
  rcases hid with rfl | rfl
  · refine ⟨⟨?_, hiso, hfirst⟩, ⟨?_, hiso, hfirst⟩⟩
    · unfold sampleReaders
      dsimp only
      rw [if_pos rfl]
      rfl
    · unfold sampleReaders
      dsimp only
      rw [if_neg (Ne.symm h13), if_neg (Ne.symm h23), if_pos rfl]
      rfl
  · refine ⟨⟨?_, hiso, hsecond⟩, ⟨?_, hiso, hsecond⟩⟩
    · unfold sampleReaders
      dsimp only
      rw [if_neg (Ne.symm h12), if_pos rfl]
      rfl
    · unfold sampleReaders
      dsimp only
      rw [if_neg (Ne.symm h14), if_neg (Ne.symm h24), if_neg (Ne.symm h34), if_pos rfl]
      rfl

/-- The filters pass their checks, and the first request fails: there is no walk. -/
theorem pagination_refused :
    requestIncidents sampleReaders sinceFirstMidnight.val 1 none [sampleIncident 1] =
        .error (.query .database) ∧
      requestIncidentEvents sampleReaders hostNul.val 1 none [sampleIncidentEvent 1] =
        .error (.query .database) ∧
      ¬(incidentListing sampleReaders).Enumerates
        (fun _ => [sampleIncident 1].filter sinceFirstMidnight.val.matches)
        (fun _ cursor => requestIncidents sampleReaders sinceFirstMidnight.val 1 cursor
          [sampleIncident 1]) ∧
      ¬(auditListing sampleReaders).Enumerates
        (fun _ => [sampleIncidentEvent 1].filter hostNul.val.matches)
        (fun _ cursor => requestIncidentEvents sampleReaders hostNul.val 1 cursor
          [sampleIncidentEvent 1]) := by
  have hlimit : ∀ _ : ℕ, (1 : ℤ) ≤ 1 ∧ (1 : ℤ) ≤ 200 := fun _ => by norm_num
  refine ⟨rfl, rfl, ?_, ?_⟩
  · intro h
    exact absurd (h.encodable _ (requestIncidents_serves _ sinceFirstMidnight _ hlimit)) (by decide)
  · intro h
    exact absurd (h.encodable _ (requestIncidentEvents_serves _ hostNul _ hlimit)) (by decide)

theorem pagination_sample :
    (incidentListing sampleReaders).Enumerates
        (fun _ => [sampleIncident 1, sampleIncident 2].filter fun r =>
          IncidentFilterFields.matches {} r)
        (fun _ cursor => requestIncidents sampleReaders {} 1 cursor
          [sampleIncident 1, sampleIncident 2]) ∧
      (auditListing sampleReaders).Enumerates
        (fun i => (if i = 0 then [sampleIncidentEvent 1]
          else [sampleIncidentEvent 2, sampleIncidentEvent 1]).filter fun r =>
          AuditFilterFields.matches {} r)
        fun i cursor => requestIncidentEvents sampleReaders {} 1 cursor
          (if i = 0 then [sampleIncidentEvent 1]
            else [sampleIncidentEvent 2, sampleIncidentEvent 1]) := by
  have hp := pagination sampleReaders (fun _ => 1) fun _ => by decide
  refine ⟨(hp.1 ⟨{}, by decide⟩ _ (by decide) ?_).mpr (by decide),
    (hp.2 ⟨{}, by decide⟩ _ ?_ ?_ ?_).mpr (by decide)⟩
  · intro r hr
    rcases List.mem_pair.mp hr with rfl | rfl
    · exact (sampleReaders_roundTrip 1 (Or.inl rfl)).1
    · exact (sampleReaders_roundTrip 2 (Or.inr rfl)).1
  · intro i
    by_cases hi : i = 0
    · rw [if_pos hi]
      decide
    · rw [if_neg hi]
      decide
  · intro i r hr
    rw [if_neg (Nat.succ_ne_zero i)]
    by_cases hi : i = 0
    · rw [if_pos hi, List.mem_singleton] at hr
      rw [hr]
      exact List.mem_cons_of_mem _ List.mem_cons_self
    · rwa [if_neg hi] at hr
  · intro i r hr
    by_cases hi : i = 0
    · rw [if_pos hi, List.mem_singleton] at hr
      rw [hr]
      exact (sampleReaders_roundTrip 1 (Or.inl rfl)).2
    · rw [if_neg hi] at hr
      rcases List.mem_pair.mp hr with rfl | rfl
      · exact (sampleReaders_roundTrip 2 (Or.inr rfl)).2
      · exact (sampleReaders_roundTrip 1 (Or.inl rfl)).2

end Correlia
