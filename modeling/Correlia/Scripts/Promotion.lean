import Correlia.Lib.Attempt
import Correlia.Scripts.MigrationReport

/-!
# Scripts.Promotion — publishing the generated files (`scripts/migrate_vigilo_config.py`)

`fails` says which calls raise.  A copy that fails may leave anything under its name in the backup
directory; a rename either happens or does not.  The calls of the handler succeed.
-/

namespace Correlia

open Lib Attempt

inductive ConfigFile
  | rules | topology | plugins
deriving DecidableEq, Repr

/-- The keys of `target_files`, in their order. -/
def targetFiles : List ConfigFile := [.rules, .topology, .plugins]

/-- A directory: the contents of the files in it, under the three names. -/
abbrev Directory (α : Type) := ConfigFile → Option α

/-- A directory that may be absent. -/
def fileIn {α : Type} (dir : Option (Directory α)) (name : ConfigFile) : Option α :=
  dir.bind fun d => d name

/-- `directory / name` written or removed. -/
def setFile {α : Type} (name : ConfigFile) (content : Option α) (d : Directory α) : Directory α :=
  fun n => if n = name then content else d n

/-- The calls of `_promote` that may raise. -/
inductive PromoteStep
  | mkdir
  | mkdtemp
  | exists (name : ConfigFile)
  | backup (name : ConfigFile)
  | replace (name : ConfigFile)
deriving DecidableEq

/-- The disk and the two collections of `_promote`. -/
structure Promotion (α : Type) where
  out : Option (Directory α)
  staged : Directory α
  backupDir : Directory α
  backedUp : List ConfigFile
  promoted : List ConfigFile

section Promote

variable {α : Type} (fails : PromoteStep → Bool) (debris : Directory α)

/-- One round of the backup loop. -/
def backupFile (name : ConfigFile) : Attempt (Promotion α) := fun p =>
  if fails (.exists name) then .error p
  else
    match fileIn p.out name with
    | none => .ok p
    | some content =>
      if fails (.backup name) then
        .error { p with backupDir := setFile name (debris name) p.backupDir }
      else
        .ok { p with
          backupDir := setFile name (some content) p.backupDir
          backedUp := p.backedUp ++ [name] }

/-- One round of the replacing loop; without its source or its directory a rename fails. -/
def replaceFile (name : ConfigFile) : Attempt (Promotion α) := fun p =>
  match p.staged name, p.out with
  | some content, some out =>
    if fails (.replace name) then .error p
    else
      .ok { p with
        out := some (setFile name (some content) out)
        staged := setFile name none p.staged
        promoted := p.promoted ++ [name] }
  | _, _ => .error p

/-- The body of the `try`. -/
def promoteBody : Attempt (Promotion α) :=
  andThen (step (fails .mkdir) fun p => { p with out := some (p.out.getD fun _ => none) })
    (andThen (step (fails .mkdtemp) fun p => { p with backupDir := fun _ => none })
      (andThen (forEach (backupFile fails debris) targetFiles)
        (forEach (replaceFile fails) targetFiles)))

/-- `shutil.copy2(str(backup), str(out_dir / name))`. -/
def restoreFile (p : Promotion α) (name : ConfigFile) : Promotion α :=
  { p with out := p.out.map (setFile name (p.backupDir name)) }

/-- `(out_dir / name).unlink(missing_ok=True)`, where there is no backup. -/
def unlinkFile (p : Promotion α) (name : ConfigFile) : Promotion α :=
  if name ∈ p.backedUp then p else { p with out := p.out.map (setFile name none) }

/-- The handler. -/
def rollback (createdOutDir : Bool) (p : Promotion α) : Promotion α :=
  let p := p.backedUp.foldl restoreFile p
  let p := p.promoted.foldl unlinkFile p
  if createdOutDir && targetFiles.all fun n => (fileIn p.out n).isNone then { p with out := none }
  else p

/-- `_promote`: whether it raises, and the output directory afterwards. -/
def promote (out : Option (Directory α)) (staged : Directory α) :
    Bool × Option (Directory α) :=
  match promoteBody fails debris ⟨out, staged, fun _ => none, [], []⟩ with
  | .ok p => (false, p.out)
  | .error p => (true, (rollback out.isNone p).out)

/-- The calls of the end of `main` that may raise. -/
inductive PublishStep
  | mkdtemp
  | write (name : ConfigFile)
  | validate
  | promote (s : PromoteStep)
deriving DecidableEq

/-- The end of `main`, from staging on: the failure code it finishes with, if no exception escapes,
and the output directory afterwards. -/
def publish (fails : PublishStep → Bool) (out : Option (Directory α)) (new : ConfigFile → α) :
    Option MigrationFailureCode × Option (Directory α) :=
  if fails .mkdtemp then (none, out)
  else
    let write (name : ConfigFile) : Attempt (Directory α) :=
      step (fails (.write name)) (setFile name (some (new name)))
    match forEach write targetFiles (fun _ => none) with
    | .error _ => (none, out)
    | .ok staged =>
      if fails .validate then (some .stagedValidation, out)
      else
        match promote (fun s => fails (.promote s)) debris out staged with
        | (true, out') => (some .promotionFailure, out')
        | (false, out') => (some .none, out')

end Promote

end Correlia
