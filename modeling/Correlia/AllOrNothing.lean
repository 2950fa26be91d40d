import Correlia.Scripts.Promotion

/-!
# AllOrNothing — promotion publishes all three files or none

`Recoverable` holds wherever `_promote` raises: what the two collections say of the disk is enough
for the handler to put every file back.
-/

namespace Correlia

open Lib Attempt

variable {α : Type} {fails : PromoteStep → Bool} {debris : Directory α}

theorem mem_targetFiles (n : ConfigFile) : n ∈ targetFiles := by
  cases n <;> decide

theorem fileIn_map_setFile {out : Option (Directory α)} (hout : out.isSome = true)
    (name n : ConfigFile) (content : Option α) :
    fileIn (out.map (setFile name content)) n = if n = name then content else fileIn out n := by
  obtain ⟨d, rfl⟩ := Option.isSome_iff_exists.mp hout
  rfl

/-! ### The handler -/

/-- What the handler needs to put everything back as it was in `out`. -/
structure Recoverable (out : Option (Directory α)) (p : Promotion α) : Prop where
  untouched : ∀ n, n ∉ p.backedUp → n ∉ p.promoted → fileIn p.out n = fileIn out n
  saved : ∀ n ∈ p.backedUp, p.backupDir n = fileIn out n
  present : p.backedUp ≠ [] → p.out.isSome = true
  fresh : ∀ n ∈ p.promoted, n ∉ p.backedUp → fileIn out n = none

/-- Restoring and unlinking write the output directory only. -/
structure SameBooks (p q : Promotion α) : Prop where
  backupDir : q.backupDir = p.backupDir
  backedUp : q.backedUp = p.backedUp
  promoted : q.promoted = p.promoted

theorem restoreFile_foldl (l : List ConfigFile) (p : Promotion α)
    (hout : l ≠ [] → p.out.isSome = true) :
    SameBooks p (l.foldl restoreFile p) ∧ ∀ n, fileIn (l.foldl restoreFile p).out n =
      if n ∈ l then p.backupDir n else fileIn p.out n := by
  induction l generalizing p with
  | nil => exact ⟨⟨rfl, rfl, rfl⟩, fun n => (if_neg (List.not_mem_nil)).symm⟩
  | cons name l ih =>
    have hsome : p.out.isSome = true := hout (List.cons_ne_nil _ _)
    obtain ⟨hbooks, hfiles⟩ := ih (restoreFile p name) fun _ => by
      rw [restoreFile, Option.isSome_map]
      exact hsome
    refine ⟨⟨hbooks.backupDir, hbooks.backedUp, hbooks.promoted⟩, fun n => ?_⟩
    rw [List.foldl_cons, hfiles n]
    have hone : fileIn (restoreFile p name).out n =
        if n = name then p.backupDir name else fileIn p.out n :=
      fileIn_map_setFile hsome name n _
    by_cases hn : n = name
    · subst hn
      rw [if_pos (List.mem_cons_self), hone, if_pos rfl]
      exact ite_self _
    · rw [hone, if_neg hn]
      simp only [List.mem_cons, hn, false_or]
      rfl

theorem unlinkFile_foldl (l : List ConfigFile) (p : Promotion α) :
    (l.foldl unlinkFile p).backedUp = p.backedUp ∧ ∀ n, fileIn (l.foldl unlinkFile p).out n =
      if n ∈ l ∧ n ∉ p.backedUp then none else fileIn p.out n := by
  induction l generalizing p with
  | nil => exact ⟨rfl, fun n => (if_neg fun h => List.not_mem_nil h.1).symm⟩
  | cons name l ih =>
    have hbacked : (unlinkFile p name).backedUp = p.backedUp := by
      unfold unlinkFile
      split_ifs <;> rfl
    have hone : ∀ n, fileIn (unlinkFile p name).out n =
        if n = name ∧ name ∉ p.backedUp then none else fileIn p.out n := by
      intro n
      unfold unlinkFile
      by_cases hname : name ∈ p.backedUp
      · rw [if_pos hname, if_neg fun h => h.2 hname]
      · rw [if_neg hname]
        cases hout : p.out with
        | none => simp [fileIn]
        | some d =>
          show (if n = name then none else d n) = _
          simp only [hname, not_false_eq_true, and_true]
          rfl
    obtain ⟨ihbacked, ihfiles⟩ := ih (unlinkFile p name)
    refine ⟨ihbacked.trans hbacked, fun n => ?_⟩
    rw [List.foldl_cons, ihfiles n, hbacked, hone n]
    by_cases hn : n = name
    · subst hn
      by_cases hmem : n ∈ p.backedUp
      · simp [hmem]
      · simp [hmem]
    · simp [hn]

/-- **The handler** puts every file back. -/
theorem Recoverable.rollback {out : Option (Directory α)} {p : Promotion α}
    (h : Recoverable out p) (created : Bool) (n : ConfigFile) :
    fileIn (rollback created p).out n = fileIn out n := by
  obtain ⟨hbooks, hrestored⟩ := restoreFile_foldl p.backedUp p h.present
  obtain ⟨-, hunlinked⟩ := unlinkFile_foldl (p.backedUp.foldl restoreFile p).promoted
    (p.backedUp.foldl restoreFile p)
  set q := (p.backedUp.foldl restoreFile p).promoted.foldl unlinkFile
    (p.backedUp.foldl restoreFile p) with hq
  have hfiles : ∀ n, fileIn q.out n = fileIn out n := by
    intro n
    rw [hunlinked n, hrestored n, hbooks.promoted, hbooks.backedUp]
    by_cases hbacked : n ∈ p.backedUp
    · rw [if_neg fun hn => hn.2 hbacked, if_pos hbacked, h.saved n hbacked]
    · rw [if_neg hbacked]
      by_cases hpromoted : n ∈ p.promoted
      · rw [if_pos ⟨hpromoted, hbacked⟩, h.fresh n hpromoted hbacked]
      · rw [if_neg fun hn => hpromoted hn.1, h.untouched n hbacked hpromoted]
  unfold Correlia.rollback
  dsimp only
  rw [← hq]
  by_cases hempty : (created && targetFiles.all fun n => (fileIn q.out n).isNone) = true
  · -- the directory is removed only when none of the files is in it
    rw [if_pos hempty]
    have hnone := List.all_eq_true.mp (Bool.and_eq_true_iff.mp hempty).2 n (mem_targetFiles n)
    rw [← hfiles n, Option.isNone_iff_eq_none.mp hnone]
    rfl
  · rw [if_neg hempty]
    exact hfiles n

/-! ### The body -/

section Body

variable {out : Option (Directory α)} {new : ConfigFile → α}

/-- The files of a list that were there. -/
def present (out : Option (Directory α)) (l : List ConfigFile) : List ConfigFile :=
  l.filter fun n => (fileIn out n).isSome

/-- Nothing has been replaced yet; the files done are backed up. -/
structure BackingUp (out : Option (Directory α)) (new : ConfigFile → α) (done : List ConfigFile)
    (p : Promotion α) : Prop where
  exists_out : p.out.isSome = true
  files : ∀ n, fileIn p.out n = fileIn out n
  staged : ∀ n, p.staged n = some (new n)
  backedUp : p.backedUp = present out done
  saved : ∀ n ∈ p.backedUp, p.backupDir n = fileIn out n
  promoted : p.promoted = []

/-- All files that were there are backed up; the files done are new. -/
structure Replacing (out : Option (Directory α)) (new : ConfigFile → α) (done : List ConfigFile)
    (p : Promotion α) : Prop where
  exists_out : p.out.isSome = true
  backedUp : p.backedUp = present out targetFiles
  saved : ∀ n ∈ p.backedUp, p.backupDir n = fileIn out n
  promoted : p.promoted = done
  replaced : ∀ n ∈ done, fileIn p.out n = some (new n)
  waiting : ∀ n, n ∉ done → fileIn p.out n = fileIn out n ∧ p.staged n = some (new n)

theorem BackingUp.recoverable {done : List ConfigFile} {p : Promotion α}
    (h : BackingUp out new done p) : Recoverable out p where
  untouched n _ _ := h.files n
  saved := h.saved
  present _ := h.exists_out
  fresh n hn := by
    rw [h.promoted] at hn
    cases hn

theorem Replacing.recoverable {done : List ConfigFile} {p : Promotion α}
    (h : Replacing out new done p) : Recoverable out p where
  untouched n _ hn := (h.waiting n (h.promoted ▸ hn)).1
  saved := h.saved
  present _ := h.exists_out
  fresh n _ hn := by
    rw [h.backedUp, present, List.mem_filter, not_and] at hn
    exact Option.not_isSome_iff_eq_none.mp (hn (mem_targetFiles n))

/-- A failed copy changes only the backup of a file that is not backed up. -/
theorem Recoverable.failed_copy {p : Promotion α} {name : ConfigFile} (h : Recoverable out p)
    (hname : name ∉ p.backedUp) (content : Option α) :
    Recoverable out { p with backupDir := setFile name content p.backupDir } := by
  refine ⟨h.untouched, fun n hn => ?_, h.present, h.fresh⟩
  have hne : n ≠ name := fun heq => hname (heq ▸ hn)
  exact (if_neg hne).trans (h.saved n hn)

/-- Where `_promote` raises: a call has failed, and everything can be put back. -/
def Raised (fails : PromoteStep → Bool) (out : Option (Directory α)) (p : Promotion α) : Prop :=
  Recoverable out p ∧ ∃ s, fails s = true

theorem present_append (out : Option (Directory α)) (done : List ConfigFile) (name : ConfigFile) :
    present out (done ++ [name]) =
      present out done ++ if (fileIn out name).isSome then [name] else [] := by
  unfold present
  rw [List.filter_append]
  cases hname : (fileIn out name).isSome <;> simp [hname]

theorem backupFile_ends {done : List ConfigFile} {name : ConfigFile} (hname : name ∉ done) :
    Ends (BackingUp out new done) (backupFile fails debris name) (BackingUp out new (done ++ [name]))
      (Raised fails out) := by
  intro p h
  have hbacked : name ∉ p.backedUp := fun hin => by
    rw [h.backedUp] at hin
    exact hname (List.mem_filter.mp hin).1
  unfold backupFile
  by_cases hexists : fails (.exists name) = true
  · rw [if_pos hexists]
    exact ⟨h.recoverable, _, hexists⟩
  · rw [if_neg hexists, h.files name]
    have happend := present_append out done name
    cases hfile : fileIn out name with
    | none =>
      rw [hfile, Option.isSome_none, if_neg Bool.false_ne_true, List.append_nil] at happend
      exact { h with backedUp := h.backedUp.trans happend.symm }
    | some content =>
      rw [hfile, Option.isSome_some, if_pos rfl] at happend
      by_cases hcopy : fails (.backup name) = true
      · dsimp only
        rw [if_pos hcopy]
        exact ⟨h.recoverable.failed_copy hbacked _, _, hcopy⟩
      · dsimp only
        rw [if_neg hcopy]
        refine
          { exists_out := h.exists_out
            files := h.files
            staged := h.staged
            backedUp := by rw [h.backedUp, happend]
            saved := ?_
            promoted := h.promoted }
        intro n hn
        show (if n = name then some content else p.backupDir n) = _
        rcases List.mem_append.mp hn with hn | hn
        · have hne : n ≠ name := fun heq => hbacked (heq ▸ hn)
          rw [if_neg hne]
          exact h.saved n hn
        · rw [List.mem_singleton.mp hn, if_pos rfl, hfile]

theorem replaceFile_ends {done : List ConfigFile} {name : ConfigFile} (hname : name ∉ done) :
    Ends (Replacing out new done) (replaceFile fails name) (Replacing out new (done ++ [name]))
      (Raised fails out) := by
  intro p h
  obtain ⟨d, hd⟩ := Option.isSome_iff_exists.mp h.exists_out
  have hfiles : fileIn p.out = d := by
    rw [hd]
    rfl
  unfold replaceFile
  rw [(h.waiting name hname).2, hd]
  dsimp only
  by_cases hreplace : fails (.replace name) = true
  · rw [if_pos hreplace]
    exact ⟨h.recoverable, _, hreplace⟩
  · rw [if_neg hreplace]
    refine
      { exists_out := rfl
        backedUp := h.backedUp
        saved := h.saved
        promoted := by rw [h.promoted]
        replaced := ?_
        waiting := ?_ }
    · intro n hn
      show (if n = name then some (new name) else d n) = _
      rcases List.mem_append.mp hn with hn | hn
      · have hne : n ≠ name := fun heq => hname (heq ▸ hn)
        rw [if_neg hne, ← hfiles]
        exact h.replaced n hn
      · rw [List.mem_singleton.mp hn, if_pos rfl]
    · intro n hn
      rw [List.mem_append, List.mem_singleton, not_or] at hn
      have hwaiting := h.waiting n hn.1
      rw [hfiles] at hwaiting
      exact ⟨(if_neg hn.2).trans hwaiting.1, (if_neg hn.2).trans hwaiting.2⟩

theorem targetFiles_nodup : targetFiles.Nodup := by decide

theorem not_mem_done {done rest : List ConfigFile} {name : ConfigFile}
    (h : done ++ name :: rest = targetFiles) : name ∉ done := by
  have hnodup := targetFiles_nodup
  rw [← h] at hnodup
  exact fun hin => (List.nodup_append'.mp hnodup).2.2 hin List.mem_cons_self

/-- Where `_promote` starts. -/
def Starting (out : Option (Directory α)) (new : ConfigFile → α) (p : Promotion α) : Prop :=
  p.out = out ∧ (∀ n, p.staged n = some (new n)) ∧ p.backedUp = [] ∧ p.promoted = []

theorem Starting.recoverable {p : Promotion α} (h : Starting out new p) : Recoverable out p := by
  obtain ⟨rfl, -, hbacked, hpromoted⟩ := h
  refine ⟨fun _ _ _ => rfl, ?_, fun hne => absurd hbacked hne, ?_⟩
  · rw [hbacked]
    exact fun n hn => (List.not_mem_nil hn).elim
  · rw [hpromoted]
    exact fun n hn => (List.not_mem_nil hn).elim

theorem mkdir_ends : Ends (Starting out new)
    (step (fails .mkdir) fun p => { p with out := some (p.out.getD fun _ => none) })
    (BackingUp out new []) (Raised fails out) := by
  apply Ends.step
  · exact fun hfails p h => ⟨h.recoverable, _, hfails⟩
  · rintro p ⟨rfl, hstaged, hbacked, hpromoted⟩
    refine ⟨rfl, fun n => ?_, hstaged, hbacked, fun n hn => ?_, hpromoted⟩
    · cases hp : p.out <;> rfl
    · change n ∈ p.backedUp at hn
      rw [hbacked] at hn
      exact (List.not_mem_nil hn).elim

theorem mkdtemp_ends : Ends (BackingUp out new [])
    (step (fails .mkdtemp) fun p => { p with backupDir := fun _ => none }) (BackingUp out new [])
    (Raised fails out) := by
  apply Ends.step
  · exact fun hfails p h => ⟨h.recoverable, _, hfails⟩
  · refine fun p h => { h with saved := fun n hn => ?_ }
    rw [show p.backedUp = [] from h.backedUp] at hn
    exact (List.not_mem_nil hn).elim

/-- **The body** replaces every file, or raises where everything can be put back. -/
theorem promoteBody_ends : Ends (Starting out new) (promoteBody fails debris)
    (Replacing out new targetFiles) (Raised fails out) := by
  have hbackup : Ends (BackingUp out new []) (forEach (backupFile fails debris) targetFiles)
      (BackingUp out new targetFiles) (Raised fails out) :=
    Ends.forEach (I := fun done _ => BackingUp out new done) fun done name rest h =>
      backupFile_ends (not_mem_done h)
  have hreplace : Ends (BackingUp out new targetFiles) (forEach (replaceFile fails) targetFiles)
      (Replacing out new targetFiles) (Raised fails out) := by
    refine (Ends.forEach (I := fun done _ => Replacing out new done) fun done name rest h =>
      replaceFile_ends (not_mem_done h)).mono fun p h => ?_
    exact ⟨h.exists_out, h.backedUp, h.saved, h.promoted, fun n hn => (List.not_mem_nil hn).elim,
      fun n _ => ⟨h.files n, h.staged n⟩⟩
  exact mkdir_ends.andThen (mkdtemp_ends.andThen (hbackup.andThen hreplace))

/-- `_promote` replaces all files, or raises at a failing call and leaves all as they were. -/
theorem promote_spec (fails : PromoteStep → Bool) (debris : Directory α)
    (out : Option (Directory α)) {staged : Directory α} (hstaged : ∀ n, staged n = some (new n)) :
    ((promote fails debris out staged).1 = false ∧
        ∀ n, fileIn (promote fails debris out staged).2 n = some (new n)) ∨
      ((promote fails debris out staged).1 = true ∧ (∃ s, fails s = true) ∧
        ∀ n, fileIn (promote fails debris out staged).2 n = fileIn out n) := by
  have hstart : Starting out new (⟨out, staged, fun _ => none, [], []⟩ : Promotion α) :=
    ⟨rfl, hstaged, rfl, rfl⟩
  unfold promote
  cases hbody : promoteBody fails debris ⟨out, staged, fun _ => none, [], []⟩ with
  | ok p =>
    have hdone := promoteBody_ends.ok hstart hbody
    exact Or.inl ⟨rfl, fun n => hdone.replaced n (mem_targetFiles n)⟩
  | error p =>
    obtain ⟨hrecoverable, hfails⟩ := promoteBody_ends.error hstart hbody
    exact Or.inr ⟨rfl, hfails, fun n => hrecoverable.rollback _ n⟩

/-- What is staged, once it is. -/
theorem staged_all (fails : ConfigFile → Bool) {staged : Directory α}
    (h : forEach (fun name => step (fails name) (setFile name (some (new name)))) targetFiles
      (fun _ => none) = .ok staged) (n : ConfigFile) : staged n = some (new n) := by
  have hloop : Ends (fun d : Directory α => ∀ n ∈ [], d n = some (new n))
      (forEach (fun name => step (fails name) (setFile name (some (new name)))) targetFiles)
      (fun d => ∀ n ∈ targetFiles, d n = some (new n)) (fun _ => True) := by
    refine Ends.forEach (I := fun done _ (d : Directory α) => ∀ n ∈ done, d n = some (new n)) ?_
    intro done name rest _
    apply Ends.step
    · exact fun _ _ _ => trivial
    · intro d hd n hn
      unfold setFile
      rcases List.mem_append.mp hn with hn | hn
      · split_ifs with heq
        · rw [heq]
        · exact hd n hn
      · rw [List.mem_singleton.mp hn, if_pos rfl]
  exact hloop.ok (fun n hn => (List.not_mem_nil hn).elim) h n (mem_targetFiles n)

/-- The end of `main` publishes everything and succeeds, or leaves everything as it was. -/
theorem publish_spec (debris : Directory α) (fails : PublishStep → Bool)
    (out : Option (Directory α)) (new : ConfigFile → α) :
    ((publish debris fails out new).1 = some .none ∧
        ∀ n, fileIn (publish debris fails out new).2 n = some (new n)) ∨
      ((publish debris fails out new).1 ≠ some .none ∧
        ∀ n, fileIn (publish debris fails out new).2 n = fileIn out n) := by
  unfold publish
  by_cases htemp : fails .mkdtemp = true
  · rw [if_pos htemp]
    exact Or.inr ⟨by simp, fun _ => rfl⟩
  · rw [if_neg htemp]
    dsimp only
    cases hstaged : forEach (fun name => step (fails (.write name)) (setFile name (some (new name))))
        targetFiles (fun _ => none) with
    | error d => exact Or.inr ⟨by simp, fun _ => rfl⟩
    | ok staged =>
      dsimp only
      by_cases hvalid : fails .validate = true
      · rw [if_pos hvalid]
        exact Or.inr ⟨by simp, fun _ => rfl⟩
      · rw [if_neg hvalid]
        have h := promote_spec (fun s => fails (.promote s)) debris out (staged_all _ hstaged)
        cases hp : promote (fun s => fails (.promote s)) debris out staged with
        | mk raised out' =>
          rw [hp] at h
          rcases h with ⟨hok, hfiles⟩ | ⟨hraised, -, hfiles⟩
          · obtain rfl : raised = false := hok
            exact Or.inl ⟨rfl, hfiles⟩
          · obtain rfl : raised = true := hraised
            exact Or.inr ⟨by simp, hfiles⟩

end Body

/-- **All or nothing.**  Whichever calls raise, whatever a failed copy leaves and whatever was there:
`_promote` raises and every name has what it had, or all three files are the staged ones, which they
are when no call fails; and a run of the end of `main` does the one or the other. -/
theorem promotion_all_or_nothing (debris : Directory α) (out : Option (Directory α))
    (new : ConfigFile → α) :
    (∀ fails, let r := promote fails debris out fun n => some (new n)
      (r.1 = true → ∀ n, fileIn r.2 n = fileIn out n) ∧
        (r.1 = false → ∀ n, fileIn r.2 n = some (new n)) ∧
          ((∀ s, fails s = false) → r.1 = false)) ∧
    ∀ fails, let r := publish debris fails out new
      (r.1 = some .none ∧ ∀ n, fileIn r.2 n = some (new n)) ∨
        (r.1 ≠ some .none ∧ ∀ n, fileIn r.2 n = fileIn out n) := by
  refine ⟨fun fails => ?_, fun fails => publish_spec debris fails out new⟩
  rcases promote_spec fails debris out (fun n => (rfl : some (new n) = _)) with
    ⟨hok, hfiles⟩ | ⟨hraised, ⟨s, hs⟩, hfiles⟩
  · refine ⟨fun h => ?_, fun _ => hfiles, fun _ => hok⟩
    rw [hok] at h
    cases h
  · refine ⟨fun _ => hfiles, fun h => ?_, fun h => ?_⟩
    · rw [hraised] at h
      cases h
    · rw [h s] at hs
      cases hs

/-- The third rename fails over an old rules file: it comes back, and the new topology goes. -/
example :
    let r := promote (fun s => decide (s = .replace .plugins)) (fun _ => none)
      (some fun n => if n = .rules then some "old" else none) fun _ => some "new"
    r.1 = true ∧ targetFiles.map (fileIn r.2) = [some "old", none, none] := by decide

end Correlia
