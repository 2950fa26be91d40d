import Correlia.Poisoning

/-!
# NoteBounds — the notes of a context under lifecycle calls

A lifecycle call writes at most fourteen notes, so room is left for older ones, of which the last
stay.  The notes never outgrow their bound (`lifecycle_note_bounds`).
-/

namespace Correlia

open Lib

/-- The notes that no lifecycle call wrote, as they are stored. -/
def otherNotes (notes : Dict JsonKey String) : List (JsonKey × String) :=
  notes.entries.filter fun e => !isLifecycleKey e.1.text

/-- The notes a lifecycle call leaves of the existing ones. -/
structure NotesAfter (existing : Dict JsonKey String) (a : LifecycleArgs)
    (notes : Dict JsonKey String) : Prop where
  size : notes.size ≤ 20
  written : ∀ n ∈ lifecycleNotes a, (JsonKey.mk n.1, n.2) ∈ notes.entries
  fresh : ∀ e ∈ notes.entries, isLifecycleKey e.1.text = true →
    ∃ n ∈ lifecycleNotes a, (JsonKey.mk n.1, n.2) = e
  kept : otherNotes notes <:+ otherNotes existing
  longest : ∀ s, s <:+ otherNotes existing → s.length + (lifecycleNotes a).length ≤ 20 →
    s <:+ otherNotes notes

section

variable {existing : Dict JsonKey String} {a : LifecycleArgs}

theorem keptNotes_eq (existing : Dict JsonKey String) (a : LifecycleArgs) :
    keptNotes existing a = (otherNotes existing).drop
      ((otherNotes existing).length - (20 - (lifecycleNotes a).length)) := by
  have hnotes := lifecycleNotes_length a
  show lastItems _ (otherNotes existing) = _
  unfold lastItems
  rw [if_neg]
  omega

/-- The other notes after the call are the kept ones, in their order. -/
theorem otherNotes_merged : otherNotes (mergedNotes existing a) = keptNotes existing a := by
  have hkept : Strict Prod.fst (keptNotes existing a) :=
    existing.strict.sublist (keptNotes_sublist existing a)
  have hmerged : Strict Prod.fst (otherNotes (mergedNotes existing a)) :=
    (mergedNotes existing a).strict.sublist List.filter_sublist
  apply eq_of_strict hmerged hkept
  intro e
  rw [otherNotes, List.mem_filter, mem_mergedNotes, Bool.not_eq_true']
  constructor
  · rintro ⟨he | ⟨n, hn, rfl⟩, hother⟩
    · exact he
    · have hlifecycle := (lifecycleKeys_ok n.1 (mem_lifecycleKeys hn)).2.2
      rw [hlifecycle] at hother
      cases hother
  · intro he
    refine ⟨Or.inl he, ?_⟩
    have hother := (List.mem_filter.mp ((lastItems_sublist _ _).subset he)).2
    rwa [Bool.not_eq_true'] at hother

theorem mergedNotes_after (existing : Dict JsonKey String) (a : LifecycleArgs) :
    NotesAfter existing a (mergedNotes existing a) where
  size := mergedNotes_size existing a
  written := fun n hn => mem_mergedNotes.mpr (Or.inr ⟨n, hn, rfl⟩)
  fresh := by
    intro e he hlifecycle
    rcases mem_mergedNotes.mp he with hkept | hnew
    · have hother := (List.mem_filter.mp ((lastItems_sublist _ _).subset hkept)).2
      rw [hlifecycle] at hother
      cases hother
    · exact hnew
  kept := by
    rw [otherNotes_merged, keptNotes_eq]
    exact List.drop_suffix _ _
  longest := by
    intro s hs hfits
    rw [otherNotes_merged, keptNotes_eq]
    apply List.suffix_of_suffix_length_le hs (List.drop_suffix _ _)
    have := hs.length_le
    rw [List.length_drop]
    omega

/-! ### What a refused context complains of -/

/-- The complaint about more than 20 notes. -/
def tooManyNotes : FieldError := ⟨"notes", .tooLong⟩

theorem tooManyNotes_notMem_notes {notes : Dict JsonKey String} (h : notes.size ≤ 20) :
    tooManyNotes ∉ notesErrors notes := by
  intro hmem
  rcases mem_thenErrors hmem with hmem | hmem
  · rcases mem_thenErrors hmem with hmem | hmem
    · obtain ⟨e, -, he⟩ := List.mem_flatMap.mp hmem
      rcases List.mem_append.mp he with he | he
      · rcases mem_thenErrors he with he | he <;> cases (mem_check.mp he).2
      · rcases mem_strErrors he with he | he <;> cases he
    · have hlong := (mem_check.mp hmem).1
      rw [decide_eq_false_iff_not] at hlong
      exact hlong h
  · cases (mem_check.mp hmem).2

/-- A bounded tuple under another name does not complain of the notes. -/
theorem tooManyNotes_notMem_tuple {loc : String} (hloc : loc ≠ "notes") (l : List String) :
    tooManyNotes ∉ stringTupleErrors loc l := by
  intro hmem
  rcases mem_thenErrors hmem with hmem | hmem
  · exact hloc (FieldError.mk.inj (mem_check.mp hmem).2).1.symm
  · obtain ⟨s, -, hs⟩ := List.mem_flatMap.mp hmem
    rcases mem_strErrors hs with hs | hs <;> cases hs

theorem tooManyNotes_notMem_text {loc : String} (o : Option String) :
    tooManyNotes ∉ optErrors (strErrors 1 256 loc) o := by
  intro hmem
  obtain ⟨s, -, hs⟩ := mem_optErrors.mp hmem
  rcases mem_strErrors hs with hs | hs <;> cases hs

theorem tooManyNotes_notMem {c : ContextFields} (h : c.notes.size ≤ 20) :
    tooManyNotes ∉ c.errors := by
  unfold ContextFields.errors
  simp only [List.mem_append, not_or]
  refine ⟨⟨⟨⟨⟨⟨⟨⟨⟨⟨?_, ?_⟩, ?_⟩, ?_⟩, ?_⟩, ?_⟩, ?_⟩, ?_⟩, ?_⟩, ?_⟩, ?_⟩
  iterate 4 exact tooManyNotes_notMem_text _
  · exact tooManyNotes_notMem_tuple (by decide) _
  · exact tooManyNotes_notMem_tuple (by decide) _
  · intro hmem
    obtain ⟨s, -, hs⟩ := mem_optErrors.mp hmem
    exact absurd (mem_check.mp hs).2 (by decide)
  · exact tooManyNotes_notMem_notes h
  · intro hmem
    obtain ⟨n, -, hn⟩ := mem_optErrors.mp hmem
    exact absurd (mem_check.mp hn).2 (by decide)
  · exact tooManyNotes_notMem_tuple (by decide) _
  · intro hmem
    rcases mem_thenErrors hmem with hmem | hmem <;> exact absurd (mem_check.mp hmem).2 (by decide)

end

/-- The exception is a refused context, and not for the number of its notes. -/
def RefusedOtherwise (e : OpError) : Prop :=
  ∃ errors, e = .validation "DecisionContext" errors ∧ tooManyNotes ∉ errors

theorem normalizeContext_raises {d : ContextData} (h : d.fill.notes.size ≤ 20) :
    Raises RefusedOtherwise (normalizeContext d) := by
  apply Raises.bind
  · intro e he
    unfold DecisionContext.modelValidate modelValidate at he
    split_ifs at he
    · cases he
    · obtain rfl := Except.error.inj he
      exact ⟨_, rfl, tooManyNotes_notMem h⟩
  · exact fun _ _ => Raises.ok

theorem lifecycleContext_raises (r : Incident) (a : LifecycleArgs) :
    Raises RefusedOtherwise (lifecycleContext r a) := by
  unfold lifecycleContext
  apply normalizeContext_raises
  simp only [ContextData.fill, Option.getD_some]
  exact mergedNotes_size _ a

theorem lifecycleFields_notes (c : ContextFields) (n : ℕ) (a : LifecycleArgs) :
    (lifecycleFields c n a).dump.notes = some (mergedNotes c.notes a) := by
  simp only [lifecycleFields, ContextFields.dump]

theorem rowNotes_size {ops : List Op} {r : Incident} (hr : r ∈ tableAfter ops) :
    r.decisionContext.fill.notes.size ≤ 20 :=
  (notesErrors_eq_nil.mp (ContextFields.errors_eq_nil.mp (rowLimits hr).context).notes).2

/-- **Notes within bounds.**  Whatever context a lifecycle call meets: room is left for older notes;
the call leaves all its own notes, no earlier lifecycle note, and of the others the longest suffix
that fits; what refuses its context is never the number of notes, and over a valid context only a
text of the call's own.  After any run no row holds more than 20 notes. -/
theorem lifecycle_note_bounds :
    (∀ (r : Incident) (a : LifecycleArgs),
      0 < 20 - (lifecycleNotes a).length ∧
      (∀ context, lifecycleContext r a = .ok context → ∃ notes, context.notes = some notes ∧
        NotesAfter r.decisionContext.fill.notes a notes) ∧
      Raises RefusedOtherwise (lifecycleContext r a) ∧
      (r.decisionContext.Valid → (∀ s ∈ a.fingerprint, Bounded s) → (∀ s ∈ a.sourceId, Bounded s) →
        ((∃ context, lifecycleContext r a = .ok context) ↔ a.NotesOk))) ∧
      ∀ ops : List Op, ∀ r ∈ tableAfter ops, r.decisionContext.fill.notes.size ≤ 20 := by
  refine ⟨fun r a => ⟨?_, ?_, lifecycleContext_raises r a, ?_⟩, fun ops r hr => rowNotes_size hr⟩
  · have hnotes := lifecycleNotes_length a
    omega
  · intro context hcontext
    obtain ⟨-, rfl⟩ := lifecycleContext_eq_ok.mp hcontext
    exact ⟨_, lifecycleFields_notes _ _ a, mergedNotes_after _ a⟩
  · intro hvalid hfingerprint hsource
    rw [lifecycleContext_ok_iff hvalid hfingerprint hsource, lifecycleNotes_ok_iff]

/-- An acknowledgement without an operator. -/
def bareAcknowledgement : LifecycleArgs := { reason := "acknowledged" }

theorem bareAcknowledgement_ok : bareAcknowledgement.NotesOk := by
  have hzero : ValueOk (natText 0) := natText_ok (by omega)
  constructor
  · exact reasons_ok _ (by decide)
  · exact hzero
  · exact hzero
  all_goals rintro s ⟨⟩

theorem lifecycle_note_bounds_sample : ∃ r ∈ tableAfter databaseRun, ∃ context notes,
    lifecycleContext r bareAcknowledgement = .ok context ∧ context.notes = some notes ∧
      NotesAfter r.decisionContext.fill.notes bareAcknowledgement notes := by
  have hrow : (tableAfter databaseRun).isEmpty = false := by decide +kernel
  obtain ⟨r, hr⟩ := List.exists_mem_of_ne_nil _ (List.isEmpty_eq_false_iff.mp hrow)
  obtain ⟨-, hnotes, -, haccepted⟩ := lifecycle_note_bounds.1 r bareAcknowledgement
  have hvalid := (rowLimits hr).context
  obtain ⟨context, hcontext⟩ := (haccepted hvalid (by rintro s ⟨⟩) (by rintro s ⟨⟩)).mpr
    bareAcknowledgement_ok
  obtain ⟨notes, heq, hafter⟩ := hnotes context hcontext
  exact ⟨r, hr, context, notes, hcontext, heq, hafter⟩

end Correlia
