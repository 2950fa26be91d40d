import Correlia.Api.Responses

/-!
# Plugins.Interfaces — what an output plugin is given (`app/plugins/interfaces.py`)

`_envelope_from_incident` of the dispatcher builds the envelope from a row.
-/

namespace Correlia

open Lib

structure NotificationEnvelopeFields where
  incidentId : String
  ruleName : String
  groupKey : String
  severity : Severity
  summary : String
  affectedHosts : List String := []
  affectedServices : List String := []

def NotificationEnvelopeFields.errors (e : NotificationEnvelopeFields) : List FieldError :=
  strErrors 1 256 "incident_id" e.incidentId ++ strErrors 1 256 "rule_name" e.ruleName ++
    strErrors 1 256 "group_key" e.groupKey ++ strErrors 1 256 "summary" e.summary ++
    affectedErrors "affected_hosts" e.affectedHosts ++
    affectedErrors "affected_services" e.affectedServices

abbrev NotificationEnvelope := Checked NotificationEnvelopeFields.errors

def Incident.envelopeFields (r : Incident) : NotificationEnvelopeFields where
  incidentId := uuidText r.id
  ruleName := r.ruleName
  groupKey := r.groupKey
  severity := r.severity
  summary := r.summary
  affectedHosts := r.affectedHosts
  affectedServices := r.affectedServices

/-- `_envelope_from_incident`. -/
def envelopeFromIncident (r : Incident) : Except InputError NotificationEnvelope :=
  liftError (.validation "NotificationEnvelope")
    (modelValidate NotificationEnvelopeFields.errors r.envelopeFields)

theorem envelopeFromIncident_eq_ok {r : Incident} {e : NotificationEnvelope} :
    envelopeFromIncident r = .ok e ↔ e.val = r.envelopeFields := by
  rw [envelopeFromIncident, liftError_eq_ok, modelValidate_eq_ok]

/-- A row that has a response has an envelope. -/
theorem Incident.Presentable.envelope {r : Incident} (h : r.Presentable) :
    ∃ e, envelopeFromIncident r = .ok e := by
  have hid : Bounded (uuidText r.id) := by
    rw [Bounded, uuidText_length]
    omega
  have hvalid : r.envelopeFields.errors = [] := by
    simp only [NotificationEnvelopeFields.errors, List.append_eq_nil_iff, strErrors_eq_nil,
      affectedErrors_eq_nil]
    exact ⟨⟨⟨⟨⟨hid, h.ruleName⟩, h.groupKey⟩, h.summary⟩, h.affectedHosts⟩, h.affectedServices⟩
  exact ⟨⟨_, hvalid⟩, envelopeFromIncident_eq_ok.mpr rfl⟩

end Correlia
