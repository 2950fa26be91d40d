import Correlia.Lib.Json
import Correlia.Lib.Parties

/-!
# Scripts.CleanupVerification — owning a verification project (`scripts/cleanup_verification.py`)

A command is atomic.  One that fails or times out may have taken effect or not; one that succeeds
has, and its output is exact.  Container ids, and the short forms `--quiet` prints of them, are
never given twice.  The image of the claim container brings no label of its own.
-/

namespace Correlia

open Lib Prog

/-! ### The daemon and the receipts -/

/-- The rows of `_RESOURCES`. -/
inductive ResourceKind
  | container | volume | network
deriving DecidableEq, Repr

def resourceKinds : List ResourceKind := [.container, .volume, .network]

/-- A volume's id is its name. -/
structure Resource where
  id : String
  name : String
  labels : List (String × String)
deriving DecidableEq, Repr

def composeLabel : String := "com.docker.compose.project"

def projectLabel : String := "correlia.verification.project"

def invocationLabel : String := "correlia.verification.invocation"

/-- The invocation a claim container is labelled with. -/
def Resource.claimant (r : Resource) : Option String := getItem invocationLabel r.labels

/-- The form of an id that `--quiet` prints. -/
def shortId (id : String) : String := String.ofList (id.toList.take 12)

/-- `[a-f0-9]{n}` -/
def matchesHex (n : ℕ) (s : String) : Bool :=
  decide (s.length = n ∧ ∀ c ∈ s.toList, c ∈ hexChars)

/-- A receipt file is JSON, or cannot be read as JSON. -/
abbrev ReceiptFile := Option Json

/-- The daemon's resources, the short ids given so far, and the receipt of each invocation. -/
structure Host where
  resources : ResourceKind → List Resource
  usedIds : List String
  receipts : String → Option ReceiptFile

namespace Host

abbrev containers (h : Host) : List Resource := h.resources .container

def setResources (kind : ResourceKind) (l : List Resource) (h : Host) : Host :=
  { h with resources := Function.update h.resources kind l }

def setReceipt (invocation : String) (file : Option ReceiptFile) (h : Host) : Host :=
  { h with receipts := Function.update h.receipts invocation file }

/-- The daemon accepts the name, and `id` is one it may draw. -/
def CanCreate (name id : String) (h : Host) : Prop :=
  (∀ c ∈ h.containers, c.name ≠ name) ∧ matchesHex 64 id = true ∧ shortId id ∉ h.usedIds

def create (id name : String) (labels : List (String × String)) (h : Host) : Host :=
  { h.setResources .container (⟨id, name, labels⟩ :: h.containers) with
    usedIds := shortId id :: h.usedIds }

/-- What a reference names: by id, else by name, else by the only id it begins. -/
def resolve (l : List Resource) (ref : String) : Option Resource :=
  match l.find? fun r => r.id = ref with
  | some r => some r
  | none =>
    match l.find? fun r => r.name = ref with
    | some r => some r
    | none =>
      match l.filter fun r => ref.toList <+: r.id.toList with
      | [r] => some r
      | _ => none

def remove (kind : ResourceKind) (ref : String) (h : Host) : Host :=
  match resolve (h.resources kind) ref with
  | none => h
  | some r => h.setResources kind ((h.resources kind).filter (· ≠ r))

/-- `--quiet` prints volumes by name. -/
def printed : ResourceKind → Resource → String
  | .volume, r => r.name
  | _, r => shortId r.id

def hasLabel (filter : Option (String × String)) (r : Resource) : Bool :=
  match filter with
  | none => true
  | some (key, value) => getItem key r.labels = some value

def listed (kind : ResourceKind) (filter : Option (String × String)) (h : Host) : List String :=
  ((h.resources kind).filter (hasLabel filter)).map (printed kind)

end Host

/-- What the code reads of `container inspect --format {{json .}}`. -/
def inspected (c : Resource) : List (String × Json) :=
  [("Id", .string c.id), ("Name", .string ("/" ++ c.name)),
    ("Config", .object [("Labels", .object (c.labels.map fun e => (e.1, .string e.2)))])]

/-! ### Commands -/

/-- `CompletedProcess`; output read as JSON is `none` where `json.loads` raises. -/
structure Completed (α : Type) where
  returncode : ℤ
  stdout : α

/-- `_docker`: `none` when the command could not be run or timed out. -/
abbrev Docker (α : Type) := Option (Completed α)

/-- The output, unless `result is None or result.returncode != 0`. -/
def succeeded {α : Type} (result : Docker α) : Option α :=
  result.bind fun r => if r.returncode = 0 then some r.stdout else none

inductive ReadOutcome
  | missing
  | unreadable
  | json (recorded : Json)

inductive Command
  | composeConfig
  | create (name : String) (labels : List (String × String)) (image : String)
  | list (kind : ResourceKind) (filter : Option (String × String))
  | inspect (name : String)
  | remove (kind : ResourceKind) (ref : String)
  | receiptExists
  | readReceipt
  | writeReceipt (record : Json)
  | unlinkReceipt

abbrev Command.Response : Command → Type
  | .composeConfig => Docker (Option Json)
  | .create .. => Docker String
  | .list .. => Docker (List String)
  | .inspect _ => Docker (Option Json)
  | .remove .. => Docker Unit
  | .receiptExists => Bool
  | .readReceipt => ReadOutcome
  | .writeReceipt _ => Bool
  | .unlinkReceipt => Bool

/-- What a command of `invocation` does and answers.  A write opens the receipt with `"x"`, and one
that fails may leave anything in a file that was not there. -/
def does (invocation : String) : (c : Command) → Host → c.Response → Host → Prop
  | .composeConfig, h, _, h' => h' = h
  | .create name labels _, h, r, h' =>
    (h' = h ∧ succeeded r = none) ∨
      ∃ id, h.CanCreate name id ∧ h' = h.create id name labels ∧
        ∀ out, succeeded r = some out → out = id
  | .list kind filter, h, r, h' =>
    h' = h ∧ ∀ out, succeeded r = some out → out = h.listed kind filter
  | .inspect name, h, r, h' =>
    h' = h ∧ ∀ out, succeeded r = some out →
      ∃ c, Host.resolve h.containers name = some c ∧ out = some (.object (inspected c))
  | .remove kind ref, h, r, h' =>
    (h' = h ∧ succeeded r = none) ∨ h' = h.remove kind ref
  | .receiptExists, h, r, h' => h' = h ∧ r = (h.receipts invocation).isSome
  | .readReceipt, h, r, h' =>
    h' = h ∧ (r = .missing → h.receipts invocation = none) ∧
      ∀ j, r = .json j → h.receipts invocation = some (some j)
  | .writeReceipt record, h, written, h' =>
    (written = false ∧ (h' = h ∨
      h.receipts invocation = none ∧ ∃ debris, h' = h.setReceipt invocation (some debris))) ∨
    (written = true ∧ h.receipts invocation = none ∧
      h' = h.setReceipt invocation (some (some record)))
  | .unlinkReceipt, h, removed, h' =>
    (removed = false ∧ h' = h) ∨ h' = h.setReceipt invocation none

/-- What else happens on the host: anything that leaves claim containers and receipts alone. -/
inductive Elsewhere : Host → Host → Prop
  | createContainer {h : Host} {id name : String} {labels : List (String × String)}
      (hnew : h.CanCreate name id) (hlabel : getItem invocationLabel labels = none) :
      Elsewhere h (h.create id name labels)
  | removeContainer {h : Host} {c : Resource} (hc : c.claimant = none) :
      Elsewhere h (h.setResources .container (h.containers.filter (· ≠ c)))
  | others {h : Host} {kind : ResourceKind} (hkind : kind ≠ .container) (l : List Resource) :
      Elsewhere h (h.setResources kind l)

/-! ### The script -/

inductive ScriptError
  | value (text : String)
  | runtime (text : String)
  | os
deriving DecidableEq, Repr

abbrev Script := Prog Command Command.Response ScriptError

def issue (c : Command) : Script c.Response := perform c

/-- `correlia-verify-[a-z0-9](?:[a-z0-9-]{0,46}[a-z0-9])?` -/
def matchesProject (project : String) : Bool :=
  let isAlnum (c : Char) : Bool := 'a' ≤ c ∧ c ≤ 'z' ∨ '0' ≤ c ∧ c ≤ '9'
  let stem := "correlia-verify-".toList
  let rest := project.toList.drop stem.length
  decide (stem <+: project.toList) && decide (1 ≤ rest.length ∧ rest.length ≤ 48) &&
    rest.all (fun c => isAlnum c || c == '-') && rest.head?.any isAlnum &&
    rest.getLast?.any isAlnum

def validateProject (project : String) : Script Unit :=
  if matchesProject project then return ()
  else .raise (.value "invalid verification project identifier")

def validateInvocation (invocation : String) : Script Unit :=
  if matchesHex 32 invocation then return ()
  else .raise (.value "invalid verification invocation identifier")

def postgresDataVolume (project : String) : Script String := do
  validateProject project
  return project ++ "_postgres-data"

def claimName (project : String) : String := project ++ "-verification-owner"

def claimLabels (project invocation : String) : List (String × String) :=
  [(projectLabel, project), (invocationLabel, invocation)]

/-- `config["services"]["postgres"]["image"]` -/
def postgresImage (config : Json) : Option Json :=
  (config.child (.key "services")).bind fun services =>
    (services.child (.key "postgres")).bind fun postgres => postgres.child (.key "image")

def claimImage : Script String := do
  match succeeded (← issue .composeConfig) with
  | none => .raise (.runtime "unable to read verification ownership image")
  | some stdout =>
    match stdout.bind postgresImage with
    | none => .raise (.runtime "unable to read verification ownership image")
    | some (.string image) =>
      if isBlank image then
        .raise (.runtime "compose.yaml must define a nonempty PostgreSQL image")
      else return image
    | some _ => .raise (.runtime "compose.yaml must define a nonempty PostgreSQL image")

def textAt (key : String) (fields : List (String × Json)) : Option String :=
  match getItem key fields with
  | some (.string s) => some s
  | _ => none

def fieldsAt (key : String) (fields : List (String × Json)) : Option (List (String × Json)) :=
  match getItem key fields with
  | some (.object l) => some l
  | _ => none

/-- The checks of `_claim_identity` on what inspection recorded. -/
def recordedIdentity (project : String) : Json → Option (String × String)
  | .object recorded => do
    let identifier ← textAt "Id" recorded
    let config ← fieldsAt "Config" recorded
    guard (matchesHex 64 identifier = true ∧
      textAt "Name" recorded = some ("/" ++ claimName project))
    let labels ← fieldsAt "Labels" config
    let invocation ← textAt invocationLabel labels
    guard (textAt projectLabel labels = some project ∧ matchesHex 32 invocation = true)
    return (identifier, invocation)
  | _ => none

def claimIdentity (project : String) : Script (Option (String × String)) := do
  let result ← issue (.inspect (claimName project))
  match result with
  | none => .raise (.runtime "Docker verification ownership inspection failed")
  | some result =>
    if result.returncode ≠ 0 then return none
    else
      match result.stdout with
      | none => .raise (.runtime "Docker verification ownership inspection failed")
      | some recorded => return recordedIdentity project recorded

def releaseClaim (identifier : String) : Script Unit := do
  match succeeded (← issue (.remove .container identifier)) with
  | none => .raise (.runtime "Docker verification ownership release failed")
  | some _ => return ()

/-- One round of the loop of `acquire`. -/
def requireVacant (project : String) (kind : ResourceKind) : Script Unit := do
  match succeeded (← issue (.list kind (some (composeLabel, project)))) with
  | none => .raise (.runtime "Docker verification acquisition inspection failed")
  | some [] => return ()
  | some _ => .raise (.runtime "verification namespace is already occupied")

def requireNoDataVolume (project : String) : Script Unit := do
  match succeeded (← issue (.list .volume none)) with
  | none => .raise (.runtime "Docker verification acquisition inspection failed")
  | some volumes =>
    let name ← postgresDataVolume project
    if name ∈ volumes then .raise (.runtime "verification database volume already exists")
    else return ()

def receiptRecord (project invocation identifier : String) : Json :=
  .object [("project", .string project), ("invocation", .string invocation),
    ("claim", .string identifier)]

def recordOwnership (project invocation identifier : String) : Script Unit := do
  if ← issue (.writeReceipt (receiptRecord project invocation identifier)) then return ()
  else .raise (.runtime "unable to record verification ownership")

/-- The body of the `try` of `acquire`. -/
def inspectAndRecord (project invocation identifier : String) : Script Unit := do
  for kind in resourceKinds do
    requireVacant project kind
  requireNoDataVolume project
  if (← claimIdentity project) ≠ some (identifier, invocation) then
    .raise (.runtime "verification ownership claim does not match")
  else recordOwnership project invocation identifier

def acquire (project invocation : String) : Script (Option Bool) := do
  validateProject project
  validateInvocation invocation
  if ← issue .receiptExists then
    .raise (.runtime "verification ownership receipt already exists")
  else
    let image ← claimImage
    match succeeded
        (← issue (.create (claimName project) (claimLabels project invocation) image)) with
    | none => .raise (.runtime "Docker verification namespace claim failed")
    | some identifier =>
      if matchesHex 64 identifier then
        (inspectAndRecord project invocation identifier).onRaise fun
          | .runtime text => do
            releaseClaim identifier
            .raise (.runtime text)
          | e => .raise e
        return none
      else .raise (.runtime "Docker verification namespace claim failed")

/-- The checks of `_owned_claim` on the receipt. -/
def recordedClaim (project invocation : String) : Json → Option String
  | .object recorded =>
    if textAt "project" recorded = some project ∧
        textAt "invocation" recorded = some invocation then
      (textAt "claim" recorded).filter fun identifier => matchesHex 64 identifier
    else none
  | _ => none

def ownedClaim (project invocation : String) : Script (Option String) := do
  validateProject project
  validateInvocation invocation
  let file ← issue .readReceipt
  match file with
  | .missing => return none
  | .unreadable => .raise (.runtime "unable to read verification ownership receipt")
  | .json recorded =>
    match recordedClaim project invocation recorded with
    | none => return none
    | some identifier =>
      if (← claimIdentity project) = some (identifier, invocation) then return some identifier
      else return none

def hasOwnership (project invocation : String) : Script (Option Bool) := do
  let identifier ← ownedClaim project invocation
  return some identifier.isSome

/-- One kind's round of the removal loop; it carries `failed`. -/
def removeListed (project : String) (kind : ResourceKind) (failed : Bool) : Script Bool := do
  match succeeded (← issue (.list kind (some (composeLabel, project)))) with
  | none => return true
  | some resources =>
    let mut failed := failed
    for resource in resources do
      let removed ← issue (.remove kind resource)
      failed := failed || (succeeded removed).isNone
    return failed

def cleanupResources (project : String) : Script Unit := do
  let mut failed := false
  for kind in resourceKinds do
    failed ← removeListed project kind failed
  for kind in resourceKinds do
    let result ← issue (.list kind (some (composeLabel, project)))
    failed := failed || succeeded result != some []
  if failed then .raise (.runtime "Docker verification cleanup failed")
  else return ()

/-- The last step of `cleanup_owned`. -/
def releaseOwned (identifier : String) : Script Unit := do
  releaseClaim identifier
  if ← issue .unlinkReceipt then return () else .raise .os

def cleanupOwned (project invocation : String) (release : Bool) : Script (Option Bool) := do
  match ← ownedClaim project invocation with
  | none => return some false
  | some identifier =>
    cleanupResources project
    if (← claimIdentity project) ≠ some (identifier, invocation) then
      .raise (.runtime "verification ownership claim does not match")
    else if release then
      releaseOwned identifier
      return some true
    else return some true

/-! ### Invocations -/

inductive Operation
  | acquire (project : String)
  | hasOwnership (project : String)
  | cleanupOwned (project : String) (release : Bool)

/-- What each invocation may run; `None` is the answer of `acquire`. -/
def verification :
    Workload String Operation Command Command.Response ScriptError (Option Bool) Host where
  body invocation
    | .acquire project => acquire project invocation
    | .hasOwnership project => hasOwnership project invocation
    | .cleanupOwned project release => cleanupOwned project invocation release
  does := does
  env := Elsewhere

end Correlia
