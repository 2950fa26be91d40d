import Correlia.Persistence.Listing

/-!
# CursorRejection — which exceptions leave the cursor decoders

The decoders' `try` block with the class of every exception it can raise, and the classes their
`except` clauses name.  One class is missing: `UUID` raises `AttributeError` on what is neither a
string nor `None`.  And a cursor that is decoded need not be one the database takes: its timestamp may
have no instant in UTC (`cursors_rejected_iff`).
-/

namespace Correlia

open Lib

/-- The exception classes of the `try` block. -/
inductive DecoderException
  | keyError | typeError | valueError | jsonDecodeError | unicodeDecodeError | binasciiError
  | attributeError
deriving DecidableEq

/-- `isinstance(e, c)`: three of the classes are subclasses of `ValueError`. -/
def DecoderException.isInstance (e c : DecoderException) : Bool :=
  decide (e = c) ||
    (decide (c = .valueError) && decide (e ∈ [.jsonDecodeError, .unicodeDecodeError, .binasciiError]))

/-- `payload[key]`, of any JSON value. -/
def subscript (payload : Json) (key : String) : Except DecoderException Json :=
  match payload with
  | .object fields => orThrow .keyError (getItem key fields)
  | _ => .error .typeError

/-- `datetime.fromisoformat(value)`, of any JSON value. -/
def fromisoformat (readers : CursorReaders) : Json → Except DecoderException ParsedDatetime
  | .string s => orThrow .valueError (readers.fromisoformat s)
  | _ => .error .typeError

/-- The check that the timestamp is aware. -/
def requireAware : ParsedDatetime → Except DecoderException Datetime
  | .aware d => .ok d
  | .naive => .error .valueError

/-- `UUID(value)`, of any JSON value: what is there is asked for its `replace`. -/
def newUuid (readers : CursorReaders) : Json → Except DecoderException UUID
  | .string s => orThrow .valueError (readers.parseUuid s)
  | .null => .error .typeError
  | _ => .error .attributeError

/-- The `try` block of both decoders. -/
def cursorTry (strict : Bool) (timeKey : String) (readers : CursorReaders) (value : String) :
    Except DecoderException PageCursor := do
  let bytes ← orThrow .binasciiError (b64decode strict (pad value.toList))
  let text ← orThrow .unicodeDecodeError (utf8Text bytes)
  let payload ← orThrow .jsonDecodeError (readers.jsonLoads text)
  let stamp ← subscript payload timeKey
  let parsed ← fromisoformat readers stamp
  let timestamp ← requireAware parsed
  let hex ← subscript payload "id"
  let id ← newUuid readers hex
  return ⟨timestamp, id⟩

/-- How a decoder ends: the exception of its `except` clauses, or one they do not catch. -/
inductive DecoderRaised
  | rejected
  | escaped (e : DecoderException)
deriving DecidableEq

/-- `except classes as exc: raise … from exc`. -/
def exceptClauses {α : Type} (classes : List DecoderException) :
    Except DecoderException α → Except DecoderRaised α
  | .ok a => .ok a
  | .error e => .error (if classes.any e.isInstance then .rejected else .escaped e)

def incidentClasses : List DecoderException := [.keyError, .typeError, .valueError, .jsonDecodeError]

def auditClasses : List DecoderException :=
  [.unicodeDecodeError, .keyError, .typeError, .valueError, .jsonDecodeError, .binasciiError]

/-- `decode_incident_cursor`, with the exceptions by class. -/
def incidentCursor (readers : CursorReaders) (value : String) : Except DecoderRaised PageCursor :=
  exceptClauses incidentClasses (cursorTry false "last_update_time" readers value)

/-- `decode_audit_cursor`, with the exceptions by class. -/
def auditCursor (readers : CursorReaders) (value : String) : Except DecoderRaised PageCursor :=
  exceptClauses auditClasses (cursorTry true "accepted_at" readers value)

/-- The text is that of an object with this timestamp and this id. -/
def CursorFields (strict : Bool) (timeKey : String) (readers : CursorReaders) (value : String)
    (d : Datetime) (id : Json) : Prop :=
  ∃ bytes text fields stamp, b64decode strict (pad value.toList) = some bytes ∧
    utf8Text bytes = some text ∧ readers.jsonLoads text = some (.object fields) ∧
    getItem timeKey fields = some (.string stamp) ∧
    readers.fromisoformat stamp = some (.aware d) ∧ getItem "id" fields = some id

/-- Everything goes well up to the id, which is there and neither a string nor null. -/
def MistypedId (strict : Bool) (timeKey : String) (readers : CursorReaders) (value : String) :
    Prop :=
  ∃ d id, CursorFields strict timeKey readers value d id ∧ id ≠ .null ∧ ∀ s, id ≠ .string s

/-- Everything goes well, and the timestamp is before year 1 or after year 9999 in UTC. -/
def OutsideUtc (strict : Bool) (timeKey : String) (readers : CursorReaders) (value : String) : Prop :=
  ∃ d hex id, CursorFields strict timeKey readers value d (.string hex) ∧
    readers.parseUuid hex = some id ∧ d.toTimestamptz = none

section

variable {strict : Bool} {timeKey : String} {readers : CursorReaders} {value : String}

theorem subscript_eq_ok {payload v : Json} {key : String} :
    subscript payload key = .ok v ↔ ∃ fields, payload = .object fields ∧ getItem key fields = some v := by
  cases payload <;> simp [subscript]

theorem subscript_ne_attribute {payload : Json} {key : String} :
    subscript payload key ≠ .error .attributeError := by
  cases payload <;> simp [subscript]

theorem fromisoformat_eq_ok {v : Json} {parsed : ParsedDatetime} :
    fromisoformat readers v = .ok parsed ↔ ∃ s, v = .string s ∧ readers.fromisoformat s = some parsed := by
  cases v <;> simp [fromisoformat]

theorem fromisoformat_ne_attribute {v : Json} :
    fromisoformat readers v ≠ .error .attributeError := by
  cases v <;> simp [fromisoformat]

theorem newUuid_attribute_iff {v : Json} :
    newUuid readers v = .error .attributeError ↔ v ≠ .null ∧ ∀ s, v ≠ .string s := by
  cases v <;> simp [newUuid]

/-- Only the id can raise an `AttributeError`. -/
theorem cursorTry_attribute_iff :
    cursorTry strict timeKey readers value = .error .attributeError ↔
      MistypedId strict timeKey readers value := by
  unfold cursorTry
  constructor
  · intro h
    rcases bind_eq_error.mp h with h | ⟨bytes, hbytes, h⟩
    · exact absurd (orThrow_eq_error.mp h).2 (by decide)
    rcases bind_eq_error.mp h with h | ⟨text, htext, h⟩
    · exact absurd (orThrow_eq_error.mp h).2 (by decide)
    rcases bind_eq_error.mp h with h | ⟨payload, hpayload, h⟩
    · exact absurd (orThrow_eq_error.mp h).2 (by decide)
    rcases bind_eq_error.mp h with h | ⟨stamp, hstamp, h⟩
    · exact absurd h subscript_ne_attribute
    rcases bind_eq_error.mp h with h | ⟨parsed, hparsed, h⟩
    · exact absurd h fromisoformat_ne_attribute
    rcases bind_eq_error.mp h with h | ⟨d, hd, h⟩
    · cases parsed <;> cases h
    rcases bind_eq_error.mp h with h | ⟨id, hid, h⟩
    · exact absurd h subscript_ne_attribute
    rcases bind_eq_error.mp h with hfail | ⟨_, -, h⟩
    · rw [orThrow_eq_ok] at hbytes htext hpayload
      obtain ⟨fields, rfl, htime⟩ := subscript_eq_ok.mp hstamp
      obtain ⟨_, heq, hid⟩ := subscript_eq_ok.mp hid
      cases heq
      obtain ⟨s, rfl, hread⟩ := fromisoformat_eq_ok.mp hparsed
      cases parsed with
      | naive => cases hd
      | aware d' =>
        exact ⟨d', id, ⟨bytes, text, fields, s, hbytes, htext, hpayload, htime, hread, hid⟩,
          newUuid_attribute_iff.mp hfail⟩
    · cases h
  · rintro ⟨d, id, ⟨bytes, text, fields, stamp, hbytes, htext, hpayload, hstamp, hread, hid⟩, htype⟩
    have hparsed : fromisoformat readers (.string stamp) = .ok (.aware d) :=
      fromisoformat_eq_ok.mpr ⟨stamp, rfl, hread⟩
    rw [orThrow_eq_ok.mpr hbytes, ok_bind, orThrow_eq_ok.mpr htext, ok_bind,
      orThrow_eq_ok.mpr hpayload, ok_bind, subscript_eq_ok.mpr ⟨fields, rfl, hstamp⟩, ok_bind,
      hparsed, ok_bind, requireAware, ok_bind, subscript_eq_ok.mpr ⟨fields, rfl, hid⟩, ok_bind,
      newUuid_attribute_iff.mpr htype]
    rfl

/-- The clauses of both decoders name every class but one. -/
theorem classes_caught : ∀ e : DecoderException,
    incidentClasses.any e.isInstance = decide (e ≠ .attributeError) ∧
      auditClasses.any e.isInstance = decide (e ≠ .attributeError) := by
  intro e
  cases e <;> decide

/-- A decoder whose clauses name every class but that one. -/
theorem exceptClauses_escapes_iff {α : Type} {classes : List DecoderException}
    (hclasses : ∀ e : DecoderException, classes.any e.isInstance = decide (e ≠ .attributeError))
    {x : Except DecoderException α} :
    ((∃ a, exceptClauses classes x = .ok a) ∨ exceptClauses classes x = .error .rejected) ↔
      x ≠ .error .attributeError := by
  cases x with
  | ok a => simp [exceptClauses]
  | error e =>
    simp only [exceptClauses, hclasses e]
    by_cases h : e = .attributeError <;> simp [h]

/-! ### The decoders of the list queries -/

/-- The exceptions of a decoder, as the list queries tell them apart. -/
def DecoderRaised.toCursorError : DecoderRaised → CursorError
  | .rejected => .invalid
  | .escaped _ => .attribute

/-- A step as the list queries see it. -/
def translated {α : Type} (classes : List DecoderException) (x : Except DecoderException α) :
    Except CursorError α :=
  liftError DecoderRaised.toCursorError (exceptClauses classes x)

theorem translated_bind {α β : Type} {classes : List DecoderException} (x : Except DecoderException α)
    (f : α → Except DecoderException β) :
    translated classes (x >>= f) = translated classes x >>= fun a => translated classes (f a) := by
  cases x <;> rfl

section Translated

variable {classes : List DecoderException}
  (hclasses : ∀ e : DecoderException, classes.any e.isInstance = decide (e ≠ .attributeError))

include hclasses

theorem translated_error {α : Type} {e : DecoderException} (he : e ≠ .attributeError) :
    translated classes (.error e : Except DecoderException α) = .error .invalid := by
  simp only [translated, exceptClauses, hclasses e, he, ne_eq, not_false_eq_true, decide_true,
    if_true]
  rfl

theorem translated_attribute {α : Type} :
    translated classes (.error .attributeError : Except DecoderException α) = .error .attribute := by
  simp only [translated, exceptClauses, hclasses, ne_eq, not_true_eq_false, decide_false,
    Bool.false_eq_true, if_false]
  rfl

theorem translated_orThrow {α : Type} {e : DecoderException} (he : e ≠ .attributeError) (o : Option α) :
    translated classes (orThrow e o) = orThrow .invalid o := by
  cases o with
  | none => exact translated_error hclasses he
  | some a => rfl

theorem translated_subscript (payload : Json) (key : String) :
    translated classes (subscript payload key) = payloadItem payload key := by
  cases payload with
  | object fields => exact translated_orThrow hclasses (by decide) _
  | _ => exact translated_error hclasses (by decide)

theorem translated_timestamp (v : Json) :
    translated classes (fromisoformat readers v >>= requireAware) = cursorTimestamp readers v := by
  cases v with
  | string s =>
    have hvalue : translated classes (.error .valueError : Except DecoderException Datetime) =
        .error .invalid := translated_error hclasses (by decide)
    cases hread : readers.fromisoformat s with
    | none =>
      simp only [fromisoformat, cursorTimestamp, hread]
      exact hvalue
    | some parsed =>
      simp only [fromisoformat, cursorTimestamp, hread]
      cases parsed with
      | naive => exact hvalue
      | aware d => rfl
  | _ => exact translated_error hclasses (by decide)

theorem translated_newUuid (v : Json) :
    translated classes (newUuid readers v) = cursorUuid readers v := by
  cases v with
  | string s => exact translated_orThrow hclasses (by decide) _
  | null => exact translated_error hclasses (by decide)
  | _ => exact translated_attribute hclasses

/-- The decoders of the list queries are these. -/
theorem translated_cursorTry :
    translated classes (cursorTry strict timeKey readers value) =
      decodeCursor strict timeKey readers value := by
  unfold cursorTry decodeCursor
  rw [translated_bind, translated_orThrow hclasses (by decide)]
  refine bind_congr fun bytes => ?_
  rw [translated_bind, translated_orThrow hclasses (by decide)]
  refine bind_congr fun text => ?_
  rw [translated_bind, translated_orThrow hclasses (by decide)]
  refine bind_congr fun payload => ?_
  rw [translated_bind, translated_subscript hclasses]
  refine bind_congr fun stamp => ?_
  rw [← bind_assoc, translated_bind, translated_timestamp hclasses]
  refine bind_congr fun timestamp => ?_
  rw [translated_bind, translated_subscript hclasses]
  refine bind_congr fun hex => ?_
  rw [translated_bind, translated_newUuid hclasses]
  rfl

end Translated

theorem decodeCursor_attribute_iff {classes : List DecoderException}
    (hclasses : ∀ e : DecoderException, classes.any e.isInstance = decide (e ≠ .attributeError)) :
    decodeCursor strict timeKey readers value = .error .attribute ↔
      MistypedId strict timeKey readers value := by
  rw [← translated_cursorTry hclasses, ← cursorTry_attribute_iff]
  cases h : cursorTry strict timeKey readers value with
  | ok cursor => exact iff_of_false (fun h => by cases h) fun h => by cases h
  | error e =>
    by_cases he : e = .attributeError
    · rw [he, translated_attribute hclasses]
      exact iff_of_true rfl rfl
    · rw [translated_error hclasses he]
      exact iff_of_false (fun h => by cases h) fun h => he (Except.error.inj h)

theorem payloadItem_eq_ok {payload v : Json} {key : String} :
    payloadItem payload key = .ok v ↔
      ∃ fields, payload = .object fields ∧ getItem key fields = some v := by
  cases payload <;> simp [payloadItem]

theorem cursorTimestamp_eq_ok {v : Json} {d : Datetime} :
    cursorTimestamp readers v = .ok d ↔
      ∃ s, v = .string s ∧ readers.fromisoformat s = some (.aware d) := by
  cases v with
  | string s =>
    unfold cursorTimestamp
    dsimp only
    split <;> simp_all
  | _ => simp [cursorTimestamp]

theorem cursorUuid_eq_ok {v : Json} {id : UUID} :
    cursorUuid readers v = .ok id ↔ ∃ s, v = .string s ∧ readers.parseUuid s = some id := by
  cases v <;> simp [cursorUuid]

theorem decodeCursor_eq_ok {cursor : PageCursor} :
    decodeCursor strict timeKey readers value = .ok cursor ↔
      ∃ hex, CursorFields strict timeKey readers value cursor.timestamp (.string hex) ∧
        readers.parseUuid hex = some cursor.id := by
  unfold decodeCursor
  simp only [bind_eq_ok, orThrow_eq_ok, payloadItem_eq_ok, cursorTimestamp_eq_ok, cursorUuid_eq_ok]
  constructor
  · rintro ⟨bytes, hbytes, text, htext, payload, hpayload, stamp, ⟨fields, rfl, hstamp⟩, d,
      ⟨s, rfl, hread⟩, id, ⟨fields', hfields, hid⟩, uuid, ⟨hex, rfl, huuid⟩, h⟩
    cases hfields
    cases h
    exact ⟨hex, ⟨bytes, text, fields, s, hbytes, htext, hpayload, hstamp, hread, hid⟩, huuid⟩
  · rintro ⟨hex, ⟨bytes, text, fields, s, hbytes, htext, hpayload, hstamp, hread, hid⟩, huuid⟩
    exact ⟨bytes, hbytes, text, htext, _, hpayload, _, ⟨fields, rfl, hstamp⟩, _, ⟨s, rfl, hread⟩,
      _, ⟨fields, rfl, hid⟩, _, ⟨hex, rfl, huuid⟩, rfl⟩

/-- What a cursor outside UTC decodes to. -/
theorem outsideUtc_iff : OutsideUtc strict timeKey readers value ↔
    ∃ cursor, decodeCursor strict timeKey readers value = .ok cursor ∧
      cursor.timestamp.toTimestamptz = none := by
  constructor
  · rintro ⟨d, hex, id, hfields, hid, htime⟩
    exact ⟨⟨d, id⟩, decodeCursor_eq_ok.mpr ⟨hex, hfields, hid⟩, htime⟩
  · rintro ⟨cursor, hcursor, htime⟩
    obtain ⟨hex, hfields, hid⟩ := decodeCursor_eq_ok.mp hcursor
    exact ⟨_, hex, _, hfields, hid, htime⟩

end

theorem incidentClasses_caught (e : DecoderException) :
    incidentClasses.any e.isInstance = decide (e ≠ .attributeError) := (classes_caught e).1

theorem auditClasses_caught (e : DecoderException) :
    auditClasses.any e.isInstance = decide (e ≠ .attributeError) := (classes_caught e).2

/-! ### The endpoints -/

/-- The status of a list request: the endpoints catch the decoders' own exception only. -/
def listStatus {α : Type} : Except ListError α → ℕ
  | .ok _ => 200
  | .error (.cursor .invalid) => 400
  | .error (.cursor .attribute) => 500
  | .error .database => 500

/-- The decoder either returns a cursor or raises its own exception. -/
def Clean (x : Except DecoderRaised PageCursor) : Prop := (∃ cursor, x = .ok cursor) ∨ x = .error .rejected

theorem page_status {α β : Type} (listing : Listing α β) {classes : List DecoderException}
    (hclasses : ∀ e : DecoderException, classes.any e.isInstance = decide (e ≠ .attributeError))
    {strict : Bool} {timeKey : String} {readers : CursorReaders}
    (hdecode : listing.decode = decodeCursor strict timeKey readers) (filters : Parameters)
    (limit : ℕ) (value : String) (offset : Option ℤ) (rows : List α) :
    listStatus (listing.page filters limit (some value) offset rows) = 500 ↔
      ¬filters.Encodable ∨ MistypedId strict timeKey readers value ∨
        OutsideUtc strict timeKey readers value := by
  rw [← decodeCursor_attribute_iff hclasses, outsideUtc_iff, Listing.page, Parameters.bind]
  by_cases hfilters : filters.Encodable
  swap
  · rw [if_neg hfilters]
    exact iff_of_true rfl (Or.inl hfilters)
  rw [if_pos hfilters, ok_bind, Listing.select, hdecode, or_iff_right (not_not.mpr hfilters)]
  cases hcursor : decodeCursor strict timeKey readers value with
  | ok cursor =>
    rw [liftError, ok_bind, Parameters.bind]
    by_cases htime : cursor.timestamp.toTimestamptz = none
    · rw [if_neg (Parameters.encodable_timestamp.not.mpr (not_not.mpr htime))]
      exact iff_of_true rfl (Or.inr ⟨cursor, rfl, htime⟩)
    · rw [if_pos (Parameters.encodable_timestamp.mpr htime)]
      refine iff_of_false (show ¬200 = 500 by omega) ?_
      rintro (h | ⟨_, h, hnone⟩)
      · cases h
      · cases h
        exact htime hnone
  | error e =>
    cases e with
    | invalid =>
      refine iff_of_false (show ¬400 = 500 by omega) ?_
      rintro (h | ⟨_, h, -⟩)
      · cases h
      · cases h
    | «attribute» => exact iff_of_true rfl (Or.inl rfl)

/-- **Rejected cleanly.**  Each decoder returns a cursor or raises its own exception if and only if
the text is not that of an object with an aware timestamp and an id that is a number, a Boolean, an
array or an object.  A list request is answered with 500 exactly for such a cursor, for one whose
timestamp is outside the years of UTC, and where the database refuses a value of its filters. -/
theorem cursors_rejected_iff (readers : CursorReaders) (value : String) :
    (Clean (incidentCursor readers value) ↔
        ¬ MistypedId false "last_update_time" readers value) ∧
      (Clean (auditCursor readers value) ↔ ¬ MistypedId true "accepted_at" readers value) ∧
      (∀ filters : IncidentListFilters, filters.val.cursor = some value → ∀ t,
        (listStatus (listIncidents readers filters t) = 500 ↔
          ¬filters.val.parameters.Encodable ∨ MistypedId false "last_update_time" readers value ∨
            OutsideUtc false "last_update_time" readers value)) ∧
      ∀ filters : AuditEventListFilters, filters.val.cursor = some value → ∀ events,
        (listStatus (listIncidentEvents readers filters events) = 500 ↔
          ¬filters.val.parameters.Encodable ∨ MistypedId true "accepted_at" readers value ∨
            OutsideUtc true "accepted_at" readers value) := by
  refine ⟨?_, ?_, fun filters hcursor t => ?_, fun filters hcursor events => ?_⟩
  · rw [← cursorTry_attribute_iff]
    exact exceptClauses_escapes_iff incidentClasses_caught
  · rw [← cursorTry_attribute_iff]
    exact exceptClauses_escapes_iff auditClasses_caught
  · rw [listIncidents, hcursor]
    exact page_status _ incidentClasses_caught rfl _ _ _ _ _
  · rw [listIncidentEvents, hcursor]
    exact page_status _ auditClasses_caught rfl _ _ _ _ _

/-! ### A numeric id, and a timestamp before the first year -/

/-- The text of a cursor. -/
def fieldsText (timeKey stamp id : String) : String :=
  "\x7b\"" ++ timeKey ++ "\":\"" ++ stamp ++ "\",\"id\":" ++ id ++ "\x7d"

/-- A cursor as a client writes it. -/
def writtenCursor (timeKey stamp id : String) : String :=
  String.ofList (stripPadding (b64encode (utf8Bytes (fieldsText timeKey stamp id))))

/-- Readers that know the texts of one cursor. -/
def readersOf (timeKey stamp : String) (d : Datetime) (id : String) (parsed : Json) :
    CursorReaders where
  jsonLoads text :=
    if text = fieldsText timeKey stamp id then
      some (.object [(timeKey, .string stamp), ("id", parsed)])
    else none
  fromisoformat text := if text = stamp then some (.aware d) else none
  parseUuid hex := if hex = "00000000-0000-0000-0000-000000000001" then some 1 else none

theorem writtenCursor_fields (strict : Bool) {timeKey : String} (hkey : timeKey ≠ "id")
    (stamp : String) (d : Datetime) (id : String) (parsed : Json) :
    CursorFields strict timeKey (readersOf timeKey stamp d id parsed)
      (writtenCursor timeKey stamp id) d parsed := by
  refine ⟨utf8Bytes (fieldsText timeKey stamp id), fieldsText timeKey stamp id,
    [(timeKey, .string stamp), ("id", parsed)], stamp, ?_, utf8Text_utf8Bytes _, if_pos rfl, ?_,
    if_pos rfl, ?_⟩
  · rw [writtenCursor, String.toList_ofList]
    exact b64decode_b64encode _ _
  · rw [getItem_cons, if_pos rfl]
  · rw [getItem_cons, if_neg hkey, getItem_cons, if_pos rfl]

/-- Noon of 1 January 2026. -/
def newYearNoon : Datetime := ⟨63902865600 * usPerSecond, 0, by decide, utc_gt, utc_lt⟩

/-- A cursor whose id is the number one. -/
def numberedCursor (timeKey : String) : String :=
  writtenCursor timeKey "2026-01-01T12:00:00+00:00" "1"

def numberedReaders (timeKey : String) : CursorReaders :=
  readersOf timeKey "2026-01-01T12:00:00+00:00" newYearNoon "1" (.int 1)

/-- A cursor that is well formed. -/
def earlyCursor (timeKey : String) : String :=
  writtenCursor timeKey "0001-01-01T00:00:00+14:00" "\"00000000-0000-0000-0000-000000000001\""

def earlyReaders (timeKey : String) : CursorReaders :=
  readersOf timeKey "0001-01-01T00:00:00+14:00" firstMidnight
    "\"00000000-0000-0000-0000-000000000001\"" (.string "00000000-0000-0000-0000-000000000001")

theorem numberedCursor_mistyped (strict : Bool) {timeKey : String} (hkey : timeKey ≠ "id") :
    MistypedId strict timeKey (numberedReaders timeKey) (numberedCursor timeKey) := by
  refine ⟨newYearNoon, .int 1, writtenCursor_fields strict hkey _ _ _ _, ?_, fun s => ?_⟩
  · exact fun h => by cases h
  · exact fun h => by cases h

theorem earlyCursor_outside (strict : Bool) {timeKey : String} (hkey : timeKey ≠ "id") :
    OutsideUtc strict timeKey (earlyReaders timeKey) (earlyCursor timeKey) := by
  refine ⟨firstMidnight, _, 1, writtenCursor_fields strict hkey _ _ _ _, ?_, rfl⟩
  unfold earlyReaders readersOf
  dsimp only
  exact if_pos rfl

def earlyIncidents : IncidentListFilters :=
  ⟨{ cursor := some (earlyCursor "last_update_time") }, by decide +kernel⟩

def earlyEvents : AuditEventListFilters :=
  ⟨{ cursor := some (earlyCursor "accepted_at") }, by decide +kernel⟩

/-- From both decoders an `AttributeError` escapes, and both endpoints answer 500 to a cursor that is
well formed. -/
theorem cursors_escape :
    ((numberedCursor "last_update_time").length ≤ 512 ∧
        incidentCursor (numberedReaders "last_update_time") (numberedCursor "last_update_time") =
          .error (.escaped .attributeError)) ∧
      ((numberedCursor "accepted_at").length ≤ 512 ∧
        auditCursor (numberedReaders "accepted_at") (numberedCursor "accepted_at") =
          .error (.escaped .attributeError)) ∧
      listStatus (listIncidents (earlyReaders "last_update_time") earlyIncidents []) = 500 ∧
      listStatus (listIncidentEvents (earlyReaders "accepted_at") earlyEvents []) = 500 := by
  have hincident : "last_update_time" ≠ "id" := by decide
  have haudit : "accepted_at" ≠ "id" := by decide
  refine ⟨⟨by decide +kernel, ?_⟩, ⟨by decide +kernel, ?_⟩, ?_, ?_⟩
  · rw [incidentCursor, cursorTry_attribute_iff.mpr (numberedCursor_mistyped _ hincident)]
    rfl
  · rw [auditCursor, cursorTry_attribute_iff.mpr (numberedCursor_mistyped _ haudit)]
    rfl
  · exact (page_status _ incidentClasses_caught rfl _ _ _ _ _).mpr
      (Or.inr (Or.inr (earlyCursor_outside _ hincident)))
  · exact (page_status _ auditClasses_caught rfl _ _ _ _ _).mpr
      (Or.inr (Or.inr (earlyCursor_outside _ haudit)))

end Correlia
