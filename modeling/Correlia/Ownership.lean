import Correlia.Scripts.CleanupVerification

/-!
# Ownership — at most one invocation owns a verification project

Between two commands of an invocation anything may happen but this: its receipt stays, its claim
containers stay, and a container that appears has a new id (`Relies`).  So what one command has
seen of its own claim still holds at the next, and a listed id never comes to name a claim.
-/

namespace Correlia

open Lib Prog

/-! ### Hosts -/

namespace Host

variable {h h' : Host} {kind : ResourceKind} {l : List Resource} {r c : Resource}
  {ref name id : String} {labels : List (String × String)}

@[simp] theorem setResources_containers (h : Host) (l : List Resource) :
    (h.setResources .container l).containers = l := by
  simp [containers, setResources]

theorem setResources_containers_of_ne (hk : kind ≠ .container) (h : Host) (l : List Resource) :
    (h.setResources kind l).containers = h.containers := Function.update_of_ne hk.symm ..

@[simp] theorem setResources_usedIds (h : Host) (l : List Resource) :
    (h.setResources kind l).usedIds = h.usedIds := rfl

@[simp] theorem setResources_receipts (h : Host) (l : List Resource) :
    (h.setResources kind l).receipts = h.receipts := rfl

@[simp] theorem create_containers (h : Host) :
    (h.create id name labels).containers = ⟨id, name, labels⟩ :: h.containers := by
  simp [containers, create, setResources]

@[simp] theorem create_usedIds (h : Host) :
    (h.create id name labels).usedIds = shortId id :: h.usedIds := rfl

@[simp] theorem create_receipts (h : Host) :
    (h.create id name labels).receipts = h.receipts := rfl

/-- What a reference names is there, and fits the reference. -/
theorem resolve_spec (h : resolve l ref = some r) :
    r ∈ l ∧ (r.id = ref ∨ r.name = ref ∨ ref.toList <+: r.id.toList) := by
  unfold resolve at h
  cases hid : l.find? fun r => r.id = ref with
  | some r' =>
    rw [hid] at h
    cases h
    exact ⟨List.mem_of_find?_eq_some hid, .inl (by simpa using List.find?_some hid)⟩
  | none =>
    rw [hid] at h
    cases hname : l.find? fun r => r.name = ref with
    | some r' =>
      rw [hname] at h
      cases h
      exact ⟨List.mem_of_find?_eq_some hname,
        .inr (.inl (by simpa using List.find?_some hname))⟩
    | none =>
      rw [hname] at h
      dsimp only at h
      split at h
      · rename_i r' hfilter
        cases h
        have hmem : r ∈ l.filter fun r => ref.toList <+: r.id.toList := by
          rw [hfilter]
          exact List.mem_singleton_self r
        obtain ⟨hl, hprefix⟩ := List.mem_filter.mp hmem
        exact ⟨hl, .inr (.inr (of_decide_eq_true hprefix))⟩
      · cases h

/-- By its full id a container is found first. -/
theorem resolve_id (hr : r ∈ l) (hone : ∀ d ∈ l, d.id = r.id → d = r) :
    resolve l r.id = some r := by
  unfold resolve
  cases hfind : l.find? fun d => d.id = r.id with
  | none =>
    have := List.find?_eq_none.mp hfind r hr
    simp at this
  | some d =>
    have hd : d.id = r.id := by simpa using List.find?_some hfind
    exact congrArg some (hone d (List.mem_of_find?_eq_some hfind) hd)

/-- Removal takes away what the reference names, and nothing else. -/
theorem mem_remove {k : ResourceKind} :
    c ∈ (h.remove kind ref).resources k ↔
      c ∈ h.resources k ∧ ¬ (k = kind ∧ resolve (h.resources kind) ref = some c) := by
  unfold remove
  cases hr : resolve (h.resources kind) ref with
  | none => simp
  | some r =>
    by_cases hk : k = kind
    · subst hk
      simp only [setResources, Function.update_self, List.mem_filter, decide_not,
        Bool.not_eq_true', decide_eq_false_iff_not, true_and, Option.some.injEq]
      exact and_congr_right fun _ => not_congr eq_comm
    · simp [setResources, hk]

@[simp] theorem remove_usedIds (h : Host) : (h.remove kind ref).usedIds = h.usedIds := by
  unfold remove
  cases resolve (h.resources kind) ref <;> rfl

@[simp] theorem remove_receipts (h : Host) : (h.remove kind ref).receipts = h.receipts := by
  unfold remove
  cases resolve (h.resources kind) ref <;> rfl

/-! ### The daemon's invariant -/

/-- Names and short ids are exclusive, ids are ids the daemon has drawn, and what is labelled with
an invocation is a claim. -/
structure WellFormed (h : Host) : Prop where
  ids : ∀ c ∈ h.containers, matchesHex 64 c.id = true ∧ shortId c.id ∈ h.usedIds
  shortIds : ∀ c ∈ h.containers, ∀ d ∈ h.containers, shortId c.id = shortId d.id → c = d
  names : ∀ c ∈ h.containers, ∀ d ∈ h.containers, c.name = d.name → c = d
  claims : ∀ c ∈ h.containers, c.claimant ≠ none →
    (∃ project, c.name = claimName project) ∧ getItem composeLabel c.labels = none

theorem WellFormed.of_subset (hh : h.WellFormed) (hsub : h'.containers ⊆ h.containers)
    (hused : h'.usedIds = h.usedIds) : h'.WellFormed where
  ids c hc := hused ▸ hh.ids c (hsub hc)
  shortIds c hc d hd := hh.shortIds c (hsub hc) d (hsub hd)
  names c hc d hd := hh.names c (hsub hc) d (hsub hd)
  claims c hc := hh.claims c (hsub hc)

theorem WellFormed.create (hh : h.WellFormed) (hnew : h.CanCreate name id)
    (hclaim : getItem invocationLabel labels ≠ none →
      (∃ project, name = claimName project) ∧ getItem composeLabel labels = none) :
    (h.create id name labels).WellFormed := by
  obtain ⟨hname, hid, hshort⟩ := hnew
  have hfresh : ∀ c ∈ h.containers, shortId c.id ≠ shortId id := fun c hc heq =>
    hshort (heq ▸ (hh.ids c hc).2)
  refine ⟨?_, ?_, ?_, ?_⟩ <;> simp only [create_containers, create_usedIds, List.forall_mem_cons]
  · exact ⟨⟨hid, List.mem_cons_self⟩,
      fun c hc => ⟨(hh.ids c hc).1, List.mem_cons_of_mem _ (hh.ids c hc).2⟩⟩
  · exact ⟨⟨fun _ => trivial, fun d hd heq => (hfresh d hd heq.symm).elim⟩,
      fun c hc => ⟨fun heq => (hfresh c hc heq).elim, fun d hd => hh.shortIds c hc d hd⟩⟩
  · exact ⟨⟨fun _ => trivial, fun d hd heq => (hname d hd heq.symm).elim⟩,
      fun c hc => ⟨fun heq => (hname c hc heq).elim, fun d hd => hh.names c hc d hd⟩⟩
  · exact ⟨hclaim, fun c hc => hh.claims c hc⟩

/-! ### Claims -/

/-- `identifier` is the claim container of `invocation` on `project`. -/
def Claimed (identifier invocation project : String) (h : Host) : Prop :=
  ∃ c ∈ h.containers, c.id = identifier ∧ c.name = claimName project ∧
    getItem projectLabel c.labels = some project ∧ c.claimant = some invocation

def Claims (invocation project : String) (h : Host) : Prop :=
  ∃ identifier, h.Claimed identifier invocation project

/-- The receipt of `invocation` names its claim container on `project`. -/
def Owns (identifier invocation project : String) (h : Host) : Prop :=
  (∃ recorded, h.receipts invocation = some (some recorded) ∧
    recordedClaim project invocation recorded = some identifier) ∧
  h.Claimed identifier invocation project

/-- A short id that was given once, and not to a claim that exists. -/
structure Harmless (ref : String) (h : Host) : Prop where
  short : ∃ id, matchesHex 64 id = true ∧ ref = shortId id
  used : ref ∈ h.usedIds
  unclaimed : ∀ c ∈ h.containers, shortId c.id = ref → c.claimant = none

theorem matchesHex_iff {n : ℕ} {s : String} :
    matchesHex n s = true ↔ s.length = n ∧ ∀ c ∈ s.toList, c ∈ hexChars := decide_eq_true_iff

theorem shortId_shortId (id : String) : shortId (shortId id) = shortId id := by
  simp [shortId, List.take_take]

theorem claimName_chars (project : String) : 'v' ∈ (claimName project).toList := by
  rw [claimName, String.toList_append]
  exact List.mem_append_right _ (by decide)

/-- A harmless reference does not resolve to a claim. -/
theorem Harmless.resolve (hh : h.WellFormed) (hr : Harmless ref h)
    (hc : resolve h.containers ref = some c) : c.claimant = none := by
  obtain ⟨hmem, hfits⟩ := resolve_spec hc
  obtain ⟨id, hid, href⟩ := hr.short
  obtain ⟨hlen, hhex⟩ := matchesHex_iff.mp hid
  rcases hfits with hfull | hname | hprefix
  · refine hr.unclaimed c hmem ?_
    rw [hfull, href, shortId_shortId]
  · -- a claim's name is no hexadecimal text
    by_contra hclaim
    obtain ⟨⟨project, hproject⟩, -⟩ := hh.claims c hmem hclaim
    have hv : 'v' ∈ (shortId id).toList := by
      rw [← href, ← hname, hproject]
      exact claimName_chars project
    rw [shortId, String.toList_ofList] at hv
    have := hhex 'v' (List.mem_of_mem_take hv)
    exact absurd this (by decide)
  · refine hr.unclaimed c hmem ?_
    have href12 : ref.toList.length = 12 := by
      rw [href, shortId, String.toList_ofList, List.length_take, String.length_toList]
      omega
    have htake := List.prefix_iff_eq_take.mp hprefix
    rw [href12] at htake
    rw [shortId, ← htake, String.ofList_toList]

/-- What the short list of a project's containers prints is harmless. -/
theorem Harmless.of_listed (hh : h.WellFormed) {project : String}
    (href : ref ∈ h.listed .container (some (composeLabel, project))) : Harmless ref h := by
  obtain ⟨c, hc, rfl⟩ := List.mem_map.mp href
  obtain ⟨hmem, hlabel⟩ := List.mem_filter.mp hc
  obtain ⟨hid, hused⟩ := hh.ids c hmem
  refine ⟨⟨c.id, hid, rfl⟩, hused, fun d hd heq => ?_⟩
  obtain rfl := hh.shortIds d hd c hmem heq
  by_contra hclaim
  have hnone := (hh.claims d hmem hclaim).2
  rw [hasLabel, hnone] at hlabel
  exact absurd hlabel (by simp)

end Host

/-! ### Interference -/

/-- What the others keep for `invocation`. -/
structure Relies (invocation : String) (h h' : Host) : Prop where
  receipt : h'.receipts invocation = h.receipts invocation
  used : h.usedIds ⊆ h'.usedIds
  kept : ∀ c ∈ h.containers, c.claimant = some invocation → c ∈ h'.containers
  created : ∀ c ∈ h'.containers, c ∉ h.containers → shortId c.id ∉ h.usedIds

/-- What an invocation may do: claim under its own name, remove its own claim, and remove
resources in `cleanup_owned` while it has the claim. -/
def Permitted (invocation : String) (o : Operation) : Command → Host → Prop
  | .create name labels _, _ =>
    ∃ project, name = claimName project ∧ labels = claimLabels project invocation
  | .remove kind ref, h =>
    (kind = .container ∧ ∃ project, h.Claimed ref invocation project) ∨
      ∃ project release, o = .cleanupOwned project release ∧ h.Claims invocation project ∧
        (kind = .container → h.Harmless ref)
  | _, _ => True

section

variable {v w : String} {o : Operation} {h h' h'' : Host}

theorem Relies.refl (w : String) (h : Host) : Relies w h h :=
  ⟨rfl, fun _ hx => hx, fun _ hc _ => hc, fun _ hc hn => (hn hc).elim⟩

theorem Relies.trans (h₁ : Relies w h h') (h₂ : Relies w h' h'') : Relies w h h'' where
  receipt := h₂.receipt.trans h₁.receipt
  used _ hx := h₂.used (h₁.used hx)
  kept c hc hw := h₂.kept c (h₁.kept c hc hw) hw
  created c hc hn := by
    by_cases hc' : c ∈ h'.containers
    · exact h₁.created c hc' hn
    · exact fun hused => h₂.created c hc hc' (h₁.used hused)

theorem Relies.create {id name : String} {labels : List (String × String)}
    (hnew : h.CanCreate name id) : Relies v h (h.create id name labels) where
  receipt := rfl
  used := List.subset_cons_self _ _
  kept c hc _ := by
    rw [Host.create_containers]
    exact List.mem_cons_of_mem _ hc
  created c hc hn := by
    rw [Host.create_containers] at hc
    obtain rfl | hc := List.mem_cons.mp hc
    · exact hnew.2.2
    · exact (hn hc).elim

/-- Removing what is not a claim of `v` is nothing to `v`. -/
theorem Relies.of_shrinking (hreceipts : h'.receipts v = h.receipts v)
    (hused : h'.usedIds = h.usedIds) (hsub : h'.containers ⊆ h.containers)
    (hkept : ∀ c ∈ h.containers, c.claimant = some v → c ∈ h'.containers) : Relies v h h' where
  receipt := hreceipts
  used := hused ▸ fun _ hx => hx
  kept := hkept
  created _ hc hn := (hn (hsub hc)).elim

/-- The container a permitted removal takes away is a claim of the invocation, or no claim. -/
theorem Permitted.resolve {ref : String} {c : Resource} (hh : h.WellFormed)
    (hok : Permitted w o (.remove .container ref) h)
    (hc : Host.resolve h.containers ref = some c) : c.claimant = some w ∨ c.claimant = none := by
  rcases hok with ⟨-, project, d, hd, rfl, -, -, hw⟩ | ⟨project, release, -, -, hharm⟩
  · have hone : Host.resolve h.containers d.id = some d :=
      Host.resolve_id hd fun e he heq => hh.shortIds e he d hd (congrArg shortId heq)
    rw [hone] at hc
    cases hc
    exact .inl hw
  · exact .inr ((hharm rfl).resolve hh hc)

theorem remove_containers_subset {kind : ResourceKind} {ref : String} :
    (h.remove kind ref).containers ⊆ h.containers := fun _ hc => (Host.mem_remove.mp hc).1

/-- **What one command may change**, of a well-formed host. -/
theorem does_wellFormed {c : Command} {r : c.Response} (hh : h.WellFormed)
    (hok : Permitted w o c h) (hd : does w c h r h') : h'.WellFormed := by
  cases c with
  | composeConfig => exact hd ▸ hh
  | create name labels image =>
    rcases hd with ⟨rfl, -⟩ | ⟨id, hnew, rfl, -⟩
    · exact hh
    · obtain ⟨project, rfl, rfl⟩ := hok
      exact hh.create hnew fun _ => ⟨⟨project, rfl⟩, rfl⟩
  | list kind filter => exact hd.1 ▸ hh
  | inspect name => exact hd.1 ▸ hh
  | remove kind ref =>
    rcases hd with ⟨rfl, -⟩ | rfl
    · exact hh
    · exact hh.of_subset remove_containers_subset (Host.remove_usedIds h)
  | receiptExists => exact hd.1 ▸ hh
  | readReceipt => exact hd.1 ▸ hh
  | writeReceipt record =>
    rcases hd with ⟨-, rfl | ⟨-, debris, rfl⟩⟩ | ⟨-, -, rfl⟩
    · exact hh
    · exact hh.of_subset (fun _ hc => hc) rfl
    · exact hh.of_subset (fun _ hc => hc) rfl
  | unlinkReceipt =>
    rcases hd with ⟨-, rfl⟩ | rfl
    · exact hh
    · exact hh.of_subset (fun _ hc => hc) rfl

theorem Relies.setReceipt {file : Option ReceiptFile} (hvw : v ≠ w) :
    Relies v h (h.setReceipt w file) :=
  .of_shrinking (Function.update_of_ne hvw ..) rfl (fun _ hc => hc) fun _ hc _ => hc

theorem does_relies {c : Command} {r : c.Response} (hvw : v ≠ w) (hh : h.WellFormed)
    (hok : Permitted w o c h) (hd : does w c h r h') : Relies v h h' := by
  cases c with
  | composeConfig => exact hd ▸ .refl v h
  | create name labels image =>
    rcases hd with ⟨rfl, -⟩ | ⟨id, hnew, rfl, -⟩
    · exact .refl v _
    · exact .create hnew
  | list kind filter => exact hd.1 ▸ .refl v h
  | inspect name => exact hd.1 ▸ .refl v h
  | remove kind ref =>
    rcases hd with ⟨rfl, -⟩ | rfl
    · exact .refl v _
    · refine .of_shrinking (by rw [Host.remove_receipts]) (Host.remove_usedIds h)
        remove_containers_subset fun c hc hv => Host.mem_remove.mpr ⟨hc, ?_⟩
      rintro ⟨rfl, hres⟩
      rcases hok.resolve hh hres with hw | hnone
      · rw [hv] at hw
        exact hvw (Option.some.inj hw)
      · rw [hv] at hnone
        cases hnone
  | receiptExists => exact hd.1 ▸ .refl v h
  | readReceipt => exact hd.1 ▸ .refl v h
  | writeReceipt record =>
    rcases hd with ⟨-, rfl | ⟨-, debris, rfl⟩⟩ | ⟨-, -, rfl⟩
    · exact .refl v _
    · exact .setReceipt hvw
    · exact .setReceipt hvw
  | unlinkReceipt =>
    rcases hd with ⟨-, rfl⟩ | rfl
    · exact .refl v _
    · exact .setReceipt hvw

theorem Elsewhere.wellFormed (hh : h.WellFormed) (he : Elsewhere h h') : h'.WellFormed := by
  cases he with
  | createContainer hnew hlabel => exact hh.create hnew fun hclaim => (hclaim hlabel).elim
  | removeContainer hc =>
    refine hh.of_subset ?_ rfl
    rw [Host.setResources_containers]
    exact List.filter_subset_self _
  | others hkind l =>
    refine hh.of_subset ?_ rfl
    rw [Host.setResources_containers_of_ne hkind]
    exact fun _ hc => hc

theorem Elsewhere.relies (he : Elsewhere h h') : Relies w h h' := by
  cases he with
  | createContainer hnew hlabel => exact .create hnew
  | @removeContainer c hc =>
    refine .of_shrinking rfl rfl ?_ fun d hd hw => ?_ <;> rw [Host.setResources_containers]
    · exact List.filter_subset_self _
    · have hne : d ≠ c := by
        rintro rfl
        rw [hc] at hw
        cases hw
      exact List.mem_filter.mpr ⟨hd, by simpa using hne⟩
  | others hkind l =>
    refine .of_shrinking rfl rfl ?_ fun d hd _ => ?_ <;>
      rw [Host.setResources_containers_of_ne hkind]
    · exact fun _ hc => hc
    · exact hd

/-- The discipline of the script. -/
def exclusion : Discipline verification where
  inv := Host.WellFormed
  rely := Relies
  ok := Permitted
  rely_refl := Relies.refl
  rely_trans _ _ _ _ _ h₁ h₂ := h₁.trans h₂
  does_inv _ _ _ _ _ _ hh hok hd := does_wellFormed hh hok hd
  does_rely _ _ _ _ _ _ _ hvw hh hok hd := does_relies hvw hh hok hd
  env_inv _ _ hh he := he.wellFormed hh
  env_rely _ _ _ _ he := he.relies

end

/-! ### The script under the discipline -/

open Discipline

section

variable {w project identifier ref : String} {o : Operation} {P : Host → Prop}
  {X : ScriptError → Host → Prop}

theorem stable_claimed : exclusion.Stable w (Host.Claimed identifier w project) := by
  rintro h h' - - hr ⟨c, hc, hid, hname, hproject, hclaim⟩
  exact ⟨c, hr.kept c hc hclaim, hid, hname, hproject, hclaim⟩

theorem stable_harmless : exclusion.Stable w (Host.Harmless ref) := by
  rintro h h' - - hr ⟨hshort, hused, hnone⟩
  refine ⟨hshort, hr.used hused, fun c hc heq => ?_⟩
  by_cases hold : c ∈ h.containers
  · exact hnone c hold heq
  · exact (hr.created c hc hold (heq ▸ hused)).elim

theorem stable_receipt {file : Option ReceiptFile} :
    exclusion.Stable w fun h => h.receipts w = file := by
  rintro h h' - - hr hfile
  exact hr.receipt.trans hfile

/-- A command that only reads keeps every assertion, and adds what it saw. -/
theorem triple_read {c : Command} {Q : c.Response → Host → Prop} (hP : exclusion.Stable w P)
    (hQ : ∀ r, exclusion.Stable w (Q r)) (hok : ∀ h, Permitted w o c h)
    (hread : ∀ h r h', does w c h r h' → h' = h)
    (h : ∀ h r, h.WellFormed → P h → does w c h r h → Q r h) :
    exclusion.Triple w o P (issue c) (fun r h => P h ∧ Q r h) X := by
  refine .perform hP (fun r => hP.and (hQ r)) (fun s _ _ => hok s) fun s r s' hs hp hd => ?_
  obtain rfl := hread s r s' hd
  exact ⟨hp, h _ r hs hp hd⟩

theorem triple_silent {c : Command} (hP : exclusion.Stable w P)
    (hok : ∀ h, Permitted w o c h) (hread : ∀ h r h', does w c h r h' → h' = h) :
    exclusion.Triple w o P (issue c) (fun _ => P) X := by
  refine .perform hP (fun _ => hP) (fun s _ _ => hok s) fun s r s' _ hp hd => ?_
  obtain rfl := hread s r s' hd
  exact hp

theorem triple_list {kind : ResourceKind} {filter : Option (String × String)}
    (hP : exclusion.Stable w P) :
    exclusion.Triple w o P (issue (.list kind filter)) (fun _ => P) X :=
  triple_silent hP (fun _ => trivial) fun _ _ _ hd => hd.1

theorem triple_validateProject (hP : exclusion.Stable w P) (hX : ∀ e h, P h → X e h) :
    exclusion.Triple w o P (validateProject project) (fun _ => P) X := by
  unfold validateProject
  split
  · exact .ret hP fun _ _ hp => hp
  · exact .raise hP fun h _ hp => hX _ h hp

theorem triple_validateInvocation (hP : exclusion.Stable w P) (hX : ∀ e h, P h → X e h) :
    exclusion.Triple w o P (validateInvocation w) (fun _ => P) X := by
  unfold validateInvocation
  split
  · exact .ret hP fun _ _ hp => hp
  · exact .raise hP fun h _ hp => hX _ h hp

theorem triple_claimImage (hP : exclusion.Stable w P) (hX : ∀ e h, P h → X e h) :
    exclusion.Triple w o P claimImage (fun _ => P) X := by
  have hraise (e : ScriptError) :
      exclusion.Triple w o P (.raise e : Script String) (fun _ => P) X :=
    .raise hP fun h _ hp => hX e h hp
  refine (triple_silent (c := .composeConfig) hP (fun _ => trivial) fun _ _ _ hd => hd).bind
    fun result => ?_
  split
  · exact hraise _
  · split
    · exact hraise _
    · split
      · exact hraise _
      · exact .ret hP fun _ _ hp => hp
    · exact hraise _

theorem triple_requireVacant {kind : ResourceKind} (hP : exclusion.Stable w P)
    (hX : ∀ e h, P h → X e h) :
    exclusion.Triple w o P (requireVacant project kind) (fun _ => P) X := by
  refine (triple_list hP).bind fun result => ?_
  split
  · exact .raise hP fun h _ hp => hX _ h hp
  · exact .ret hP fun _ _ hp => hp
  · exact .raise hP fun h _ hp => hX _ h hp

theorem triple_requireNoDataVolume (hP : exclusion.Stable w P) (hX : ∀ e h, P h → X e h) :
    exclusion.Triple w o P (requireNoDataVolume project) (fun _ => P) X := by
  refine (triple_list hP).bind fun result => ?_
  split
  · exact .raise hP fun h _ hp => hX _ h hp
  · have hname : exclusion.Triple w o P (postgresDataVolume project) (fun _ => P) X :=
      (triple_validateProject hP hX).bind fun _ => .ret hP fun _ _ hp => hp
    refine hname.bind fun name => ?_
    split
    · exact .raise hP fun h _ hp => hX _ h hp
    · exact .ret hP fun _ _ hp => hp

/-! ### Identity -/

theorem textAt_map {key : String} {l : List (String × String)} :
    textAt key (l.map fun e => (e.1, Json.string e.2)) = getItem key l := by
  induction l with
  | nil => rfl
  | cons e l ih =>
    rw [List.map_cons, textAt, getItem_cons, getItem_cons]
    by_cases h : e.1 = key
    · rw [if_pos h, if_pos h]
    · rw [if_neg h, if_neg h]
      exact ih

@[simp] theorem textAt_id (c : Resource) : textAt "Id" (inspected c) = some c.id := rfl

@[simp] theorem textAt_name (c : Resource) :
    textAt "Name" (inspected c) = some ("/" ++ c.name) := rfl

@[simp] theorem fieldsAt_config (c : Resource) :
    fieldsAt "Config" (inspected c) =
      some [("Labels", .object (c.labels.map fun e => (e.1, .string e.2)))] := rfl

@[simp] theorem fieldsAt_labels (l : List (String × Json)) :
    fieldsAt "Labels" [("Labels", .object l)] = some l := rfl

/-- What the code takes for a claim's identity is one. -/
theorem recordedIdentity_inspected {c : Resource} {i v : String} :
    recordedIdentity project (.object (inspected c)) = some (i, v) ↔
      (c.id = i ∧ c.name = claimName project ∧ getItem projectLabel c.labels = some project ∧
        c.claimant = some v) ∧ matchesHex 64 c.id = true ∧ matchesHex 32 v = true := by
  have hname : "/" ++ c.name = "/" ++ claimName project ↔ c.name = claimName project := by
    rw [← String.toList_inj, String.toList_append, String.toList_append, List.append_cancel_left_eq,
      String.toList_inj]
  simp only [recordedIdentity, textAt_id, textAt_name, fieldsAt_config, fieldsAt_labels, textAt_map,
    Option.bind_eq_bind, Option.bind_some, Option.bind_eq_some_iff, Option.guard_eq_some',
    Option.some.injEq, Option.pure_def, Prod.mk.injEq, hname]
  constructor
  · rintro ⟨_, ⟨hid, hn⟩, invocation, hclaim, _, ⟨hproject, hhex⟩, rfl, rfl⟩
    exact ⟨⟨rfl, hn, hproject, hclaim⟩, hid, hhex⟩
  · rintro ⟨⟨hi, hn, hproject, hclaim⟩, hid, hhex⟩
    exact ⟨(), ⟨hid, hn⟩, v, hclaim, (), ⟨hproject, hhex⟩, hi, rfl⟩

theorem triple_claimIdentity (hP : exclusion.Stable w P) (hX : ∀ e h, P h → X e h) :
    exclusion.Triple w o P (claimIdentity project)
      (fun r h => P h ∧ ∀ i, r = some (i, w) → h.Claimed i w project) X := by
  have hclaims (r : Option (String × String)) : exclusion.Stable w fun h =>
      ∀ i, r = some (i, w) → h.Claimed i w project :=
    .all fun _ => .imp fun _ => stable_claimed
  -- what inspection has shown of a claim of `w`
  let Seen (result : Docker (Option Json)) (h : Host) : Prop :=
    ∀ recorded i, succeeded result = some (some recorded) →
      recordedIdentity project recorded = some (i, w) → h.Claimed i w project
  have hSeen (result : Docker (Option Json)) : exclusion.Stable w (Seen result) :=
    .all fun _ => .all fun _ => .imp fun _ => .imp fun _ => stable_claimed
  have hinspect : exclusion.Triple w o P (issue (.inspect (claimName project)))
      (fun result h => P h ∧ Seen result h) X := by
    refine triple_read hP hSeen (fun _ => trivial) (fun _ _ _ hd => hd.1) ?_
    rintro h result - - ⟨-, hout⟩ recorded i hsucc hrecorded
    obtain ⟨c, hc, heq⟩ := hout _ hsucc
    cases heq
    obtain ⟨⟨hid, hname, hproject, hclaim⟩, -⟩ := recordedIdentity_inspected.mp hrecorded
    exact ⟨c, (Host.resolve_spec hc).1, hid, hname, hproject, hclaim⟩
  refine hinspect.bind fun result => ?_
  cases result with
  | none => exact .raise (hP.and (hSeen _)) fun h _ hp => hX _ h hp.1
  | some result =>
    dsimp only
    split
    · exact .ret (hP.and (hSeen _)) fun h _ hp => ⟨hp.1, nofun⟩
    · rename_i hcode
      have hsucc : succeeded (some result) = some result.stdout := if_pos (not_not.mp hcode)
      cases hout : result.stdout with
      | none => exact .raise (hP.and (hSeen _)) fun h _ hp => hX _ h hp.1
      | some recorded =>
        refine .ret (hP.and (hSeen _)) fun h _ hp => ⟨hp.1, fun i hi => ?_⟩
        exact hp.2 recorded i (hsucc.trans (congrArg some hout)) hi

theorem triple_recordOwnership (hX : ∀ e h, h.Claimed identifier w project → X e h) :
    exclusion.Triple w o (Host.Claimed identifier w project)
      (recordOwnership project w identifier) (fun _ => Host.Claimed identifier w project) X := by
  have hwrite : exclusion.Triple w o (Host.Claimed identifier w project)
      (issue (.writeReceipt (receiptRecord project w identifier)))
      (fun _ => Host.Claimed identifier w project) X := by
    refine .perform stable_claimed (fun _ => stable_claimed) (fun _ _ _ => trivial) ?_
    rintro h written h' - hp (⟨-, rfl | ⟨-, debris, rfl⟩⟩ | ⟨-, -, rfl⟩)
    · exact hp
    · exact hp
    · exact hp
  refine hwrite.bind fun written => ?_
  split
  · exact .ret stable_claimed fun _ _ hp => hp
  · exact .raise stable_claimed fun h _ hp => hX _ h hp

theorem triple_releaseClaim :
    exclusion.Triple w o (Host.Claimed identifier w project) (releaseClaim identifier)
      (fun _ _ => True) fun _ _ => True := by
  have hremove : exclusion.Triple w o (Host.Claimed identifier w project)
      (issue (.remove .container identifier)) (fun _ _ => True) fun _ _ => True :=
    .perform stable_claimed (fun _ => .const True) (fun _ _ hp => .inl ⟨rfl, project, hp⟩)
      fun _ _ _ _ _ _ => trivial
  refine hremove.bind fun result => ?_
  split
  · exact .raise (.const True) fun _ _ _ => trivial
  · exact .ret (.const True) fun _ _ _ => trivial

theorem triple_inspectAndRecord :
    exclusion.Triple w o (Host.Claimed identifier w project)
      (inspectAndRecord project w identifier) (fun _ => Host.Claimed identifier w project)
      fun _ => Host.Claimed identifier w project := by
  have hloop : exclusion.Triple w o (Host.Claimed identifier w project)
      (forIn resourceKinds PUnit.unit fun kind _ => do
        requireVacant project kind
        pure (ForInStep.yield PUnit.unit))
      (fun _ => Host.Claimed identifier w project) fun _ => Host.Claimed identifier w project :=
    .forIn stable_claimed fun kind _ _ =>
      (triple_requireVacant stable_claimed fun _ _ hp => hp).bind fun _ =>
        .ret stable_claimed fun _ _ hp => hp
  refine hloop.bind fun _ => ?_
  refine (triple_requireNoDataVolume stable_claimed fun _ _ hp => hp).bind fun _ => ?_
  refine (triple_claimIdentity stable_claimed fun _ _ hp => hp).bind fun identity => ?_
  refine Triple.mono (P := Host.Claimed identifier w project) ?_ (fun _ _ hp => hp.1)
    (fun _ _ _ hp => hp) fun _ _ _ hp => hp
  split
  · exact .raise stable_claimed fun _ _ hp => hp
  · exact triple_recordOwnership fun _ _ hp => hp

/-- **`acquire`**: what it removes is the container it has created. -/
theorem triple_acquire :
    exclusion.Triple w o (fun _ => True) (acquire project w) (fun _ _ => True)
      fun _ _ => True := by
  have hraise {α : Type} (e : ScriptError) :
      exclusion.Triple w o (fun _ => True) (.raise e : Script α) (fun _ _ => True)
        fun _ _ => True := .raise (.const True) fun _ _ _ => trivial
  refine (triple_validateProject (.const True) fun _ _ _ => trivial).bind fun _ => ?_
  refine (triple_validateInvocation (.const True) fun _ _ _ => trivial).bind fun _ => ?_
  refine (triple_silent (c := .receiptExists) (.const True) (fun _ => trivial)
    fun _ _ _ hd => hd.1).bind fun found => ?_
  split
  · exact hraise _
  · refine (triple_claimImage (.const True) fun _ _ _ => trivial).bind fun image => ?_
    have hcreate : exclusion.Triple w o (fun _ => True)
        (issue (.create (claimName project) (claimLabels project w) image))
        (fun result h => ∀ i, succeeded result = some i → h.Claimed i w project)
        fun _ _ => True := by
      refine .perform (.const True) (fun _ => .all fun _ => .imp fun _ => stable_claimed)
        (fun _ _ _ => ⟨project, rfl, rfl⟩) ?_
      rintro h result h' - - (⟨-, hfailed⟩ | ⟨id, -, rfl, hout⟩) i hi
      · rw [hfailed] at hi
        cases hi
      · obtain rfl := hout i hi
        exact ⟨⟨i, claimName project, claimLabels project w⟩, by simp, rfl, rfl, rfl, rfl⟩
    refine hcreate.bind fun result => ?_
    cases hout : succeeded result with
    | none => exact (hraise _).mono (fun _ _ _ => trivial) (fun _ _ _ h => h) fun _ _ _ h => h
    | some identifier =>
      refine Triple.mono (P := Host.Claimed identifier w project) ?_
        (fun _ _ hp => hp identifier rfl) (fun _ _ _ h => h) fun _ _ _ h => h
      dsimp only
      split
      · refine Triple.bind (A := fun _ _ => True) ?_ fun _ =>
          .ret (.const True) fun _ _ _ => trivial
        refine (triple_inspectAndRecord.onRaise fun e => ?_).mono (fun _ _ hp => hp)
          (fun _ _ _ _ => trivial) fun _ _ _ h => h
        split
        · refine Triple.bind (A := fun _ _ => True) triple_releaseClaim fun _ => ?_
          exact .raise (.const True) fun _ _ _ => trivial
        · exact .raise stable_claimed fun _ _ _ => trivial
      · exact .raise stable_claimed fun _ _ _ => trivial

theorem stable_owns : exclusion.Stable w (Host.Owns identifier w project) :=
  .and (.ex fun _ => .and stable_receipt (.const _)) stable_claimed

/-- **`_owned_claim`**: the container it returns is the claim that the receipt names. -/
theorem triple_ownedClaim :
    exclusion.Triple w o (fun _ => True) (ownedClaim project w)
      (fun r h => ∀ i, r = some i → h.Owns i w project) fun _ _ => True := by
  have hnone : exclusion.Triple w o (fun _ => True) (.ret none : Script (Option String))
      (fun r h => ∀ i, r = some i → h.Owns i w project) fun _ _ => True :=
    .ret (.const True) fun _ _ _ => nofun
  refine (triple_validateProject (.const True) fun _ _ _ => trivial).bind fun _ => ?_
  refine (triple_validateInvocation (.const True) fun _ _ _ => trivial).bind fun _ => ?_
  have hread : exclusion.Triple w o (fun _ => True) (issue .readReceipt)
      (fun file h => True ∧ ∀ recorded, file = .json recorded →
        h.receipts w = some (some recorded)) fun _ _ => True :=
    triple_read (.const True) (fun _ => .all fun _ => .imp fun _ => stable_receipt)
      (fun _ => trivial) (fun _ _ _ hd => hd.1) fun _ _ _ _ hd => hd.2.2
  refine hread.bind fun file => ?_
  cases file with
  | missing => exact hnone.mono (fun _ _ _ => trivial) (fun _ _ _ h => h) fun _ _ _ h => h
  | unreadable =>
    exact .raise (.and (.const True) (.all fun _ => .imp fun _ => stable_receipt))
      fun _ _ _ => trivial
  | json recorded =>
    refine Triple.mono (P := fun h => h.receipts w = some (some recorded)) ?_
      (fun _ _ hp => hp.2 recorded rfl) (fun _ _ _ h => h) fun _ _ _ h => h
    dsimp only
    cases hclaim : recordedClaim project w recorded with
    | none => exact hnone.mono (fun _ _ _ => trivial) (fun _ _ _ h => h) fun _ _ _ h => h
    | some identifier =>
      have hstable (r : Option (String × String)) : exclusion.Stable w fun h =>
          h.receipts w = some (some recorded) ∧
            ∀ i, r = some (i, w) → h.Claimed i w project :=
        .and stable_receipt (.all fun _ => .imp fun _ => stable_claimed)
      refine (triple_claimIdentity stable_receipt fun _ _ _ => trivial).bind fun identity => ?_
      split
      · rename_i hidentity
        refine .ret (hstable _) fun h _ hp i hi => ?_
        cases hi
        exact ⟨⟨recorded, hp.1, hclaim⟩, hp.2 _ hidentity⟩
      · exact .ret (hstable _) fun _ _ _ => nofun

/-- **`has_ownership`** returns true only to the owner. -/
theorem triple_hasOwnership :
    exclusion.Triple w o (fun _ => True) (hasOwnership project w)
      (fun r h => r = some true → ∃ identifier, h.Owns identifier w project) fun _ _ => True := by
  refine triple_ownedClaim.bind fun identifier => ?_
  refine .ret (.all fun _ => .imp fun _ => stable_owns) fun h _ hp hr => ?_
  cases identifier with
  | none => cases hr
  | some i => exact ⟨i, hp i rfl⟩

/-! ### Cleaning up -/

theorem stable_harmlessAll {kind : ResourceKind} {refs : List String} :
    exclusion.Stable w fun h =>
      h.Claimed identifier w project ∧ (kind = .container → ∀ ref ∈ refs, h.Harmless ref) :=
  .and stable_claimed (.imp fun _ => .all fun _ => .imp fun _ => stable_harmless)

/-- A removal of the loop leaves the claim and what else was listed as they are. -/
theorem triple_remove {kind : ResourceKind} {refs : List String} {release : Bool}
    (href : ref ∈ refs) :
    exclusion.Triple w (.cleanupOwned project release)
      (fun h => h.Claimed identifier w project ∧
        (kind = .container → ∀ ref ∈ refs, h.Harmless ref))
      (issue (.remove kind ref))
      (fun _ h => h.Claimed identifier w project ∧
        (kind = .container → ∀ ref ∈ refs, h.Harmless ref)) X := by
  refine .perform stable_harmlessAll (fun _ => stable_harmlessAll)
    (fun h _ hp => .inr ⟨project, release, rfl, ⟨identifier, hp.1⟩, fun hk => hp.2 hk ref href⟩) ?_
  rintro h result h' hh ⟨hclaimed, hharm⟩ (⟨rfl, -⟩ | rfl)
  · exact ⟨hclaimed, hharm⟩
  · obtain ⟨c, hc, hid, hname, hproject, hclaim⟩ := hclaimed
    refine ⟨⟨c, Host.mem_remove.mpr ⟨hc, ?_⟩, hid, hname, hproject, hclaim⟩, fun hk r hr => ?_⟩
    · rintro ⟨rfl, hres⟩
      have := (hharm rfl ref href).resolve hh hres
      rw [hclaim] at this
      cases this
    · obtain ⟨hshort, hused, hnone⟩ := hharm hk r hr
      exact ⟨hshort, by rwa [Host.remove_usedIds],
        fun d hd => hnone d (remove_containers_subset hd)⟩

theorem triple_removeListed {kind : ResourceKind} {release failed : Bool} :
    exclusion.Triple w (.cleanupOwned project release) (Host.Claimed identifier w project)
      (removeListed project kind failed) (fun _ => Host.Claimed identifier w project) X := by
  have hlist : exclusion.Triple w (.cleanupOwned project release)
      (Host.Claimed identifier w project)
      (issue (.list kind (some (composeLabel, project))))
      (fun result h => h.Claimed identifier w project ∧ ∀ refs, succeeded result = some refs →
        kind = .container → ∀ ref ∈ refs, h.Harmless ref) X := by
    refine triple_read stable_claimed (fun _ => .all fun _ => .imp fun _ => .imp fun _ =>
      .all fun _ => .imp fun _ => stable_harmless) (fun _ => trivial) (fun _ _ _ hd => hd.1) ?_
    rintro h result hh - ⟨-, hout⟩ refs hrefs rfl ref href
    obtain rfl := hout refs hrefs
    exact Host.Harmless.of_listed hh href
  refine hlist.bind fun result => ?_
  cases hout : succeeded result with
  | none =>
    exact .ret (.and stable_claimed (.all fun _ => .imp fun h => nomatch h)) fun _ _ hp => hp.1
  | some refs =>
    refine Triple.mono (P := fun h => h.Claimed identifier w project ∧
        (kind = .container → ∀ ref ∈ refs, h.Harmless ref)) ?_
      (fun _ _ hp => ⟨hp.1, hp.2 refs rfl⟩) (fun _ _ _ h => h) fun _ _ _ h => h
    refine Triple.bind (A := fun _ h => h.Claimed identifier w project ∧
        (kind = .container → ∀ ref ∈ refs, h.Harmless ref)) ?_ fun _ =>
      .ret stable_harmlessAll fun _ _ hp => hp.1
    refine .forIn stable_harmlessAll fun ref href failed => ?_
    exact (triple_remove href).bind fun removed => .ret stable_harmlessAll fun _ _ hp => hp

theorem triple_cleanupResources {release : Bool}
    (hX : ∀ e h, h.Claimed identifier w project → X e h) :
    exclusion.Triple w (.cleanupOwned project release) (Host.Claimed identifier w project)
      (cleanupResources project) (fun _ => Host.Claimed identifier w project) X := by
  unfold cleanupResources
  refine Triple.bind (A := fun _ => Host.Claimed identifier w project) ?_ fun failed => ?_
  · exact .forIn stable_claimed fun kind _ failed =>
      triple_removeListed.bind fun _ => .ret stable_claimed fun _ _ hp => hp
  · refine Triple.bind (A := fun _ => Host.Claimed identifier w project) ?_ fun failed => ?_
    · exact .forIn stable_claimed fun kind _ failed =>
        (triple_list stable_claimed).bind fun _ => .ret stable_claimed fun _ _ hp => hp
    · dsimp only
      split
      · exact .raise stable_claimed fun h _ hp => hX _ h hp
      · exact .ret stable_claimed fun _ _ hp => hp

theorem triple_releaseOwned :
    exclusion.Triple w o (Host.Claimed identifier w project) (releaseOwned identifier)
      (fun _ _ => True) fun _ _ => True := by
  refine triple_releaseClaim.bind fun _ => ?_
  have hunlink : exclusion.Triple w o (fun _ => True) (issue .unlinkReceipt) (fun _ _ => True)
      fun _ _ => True :=
    .perform (.const True) (fun _ => .const True) (fun _ _ _ => trivial) fun _ _ _ _ _ _ => trivial
  refine hunlink.bind fun removed => ?_
  split
  · exact .ret (.const True) fun _ _ _ => trivial
  · exact .raise (.const True) fun _ _ _ => trivial

/-- **`cleanup_owned`** removes resources only under its claim. -/
theorem triple_cleanupOwned {release : Bool} :
    exclusion.Triple w (.cleanupOwned project release) (fun _ => True)
      (cleanupOwned project w release) (fun _ _ => True) fun _ _ => True := by
  refine triple_ownedClaim.bind fun identifier => ?_
  cases identifier with
  | none =>
    exact .ret (.all fun _ => .imp fun h => nomatch h) fun _ _ _ => trivial
  | some i =>
    refine Triple.mono (P := Host.Claimed i w project) ?_ (fun _ _ hp => (hp i rfl).2)
      (fun _ _ _ h => h) fun _ _ _ h => h
    refine (triple_cleanupResources fun _ _ _ => trivial).bind fun _ => ?_
    refine (triple_claimIdentity stable_claimed fun _ _ _ => trivial).bind fun identity => ?_
    refine Triple.mono (P := Host.Claimed i w project) ?_ (fun _ _ hp => hp.1)
      (fun _ _ _ h => h) fun _ _ _ h => h
    split
    · exact .raise stable_claimed fun _ _ _ => trivial
    · split
      · refine Triple.bind (A := fun _ _ => True) triple_releaseOwned fun _ => ?_
        exact .ret (.const True) fun _ _ _ => trivial
      · exact .ret stable_claimed fun _ _ _ => trivial

end

/-! ### Owning -/

/-- `has_ownership` called by `invocation` now, with nobody in between, can answer true. -/
def Answers (invocation project : String) (h : Host) : Prop :=
  verification.Yields invocation (hasOwnership project invocation) h (some true) h

section

variable {v w project identifier : String} {h : Host}

theorem hasOwnership_invalid (hinvalid : ¬ (matchesProject project = true ∧
    matchesHex 32 w = true)) : ∃ e, hasOwnership project w = .raise e := by
  unfold hasOwnership ownedClaim validateProject validateInvocation
  by_cases hproject : matchesProject project = true
  · have hw : ¬ matchesHex 32 w = true := fun hw => hinvalid ⟨hproject, hw⟩
    rw [if_pos hproject, if_neg hw]
    exact ⟨_, rfl⟩
  · rw [if_neg hproject]
    exact ⟨_, rfl⟩

/-- Its own claim is what a claim's name resolves to. -/
theorem resolve_claimName {c : Resource} (hh : h.WellFormed) (hc : c ∈ h.containers)
    (hname : c.name = claimName project) :
    Host.resolve h.containers (claimName project) = some c := by
  have hid : h.containers.find? (fun r => r.id = claimName project) = none := by
    refine List.find?_eq_none.mpr fun d hd hdid => ?_
    have hdid : d.id = claimName project := by simpa using hdid
    have hv : 'v' ∈ d.id.toList := hdid ▸ Host.claimName_chars project
    exact absurd ((Host.matchesHex_iff.mp (hh.ids d hd).1).2 'v' hv) (by decide)
  unfold Host.resolve
  rw [hid]
  cases hfind : h.containers.find? fun r => r.name = claimName project with
  | none =>
    have := List.find?_eq_none.mp hfind c hc
    simp [hname] at this
  | some d =>
    have hd : d.name = claimName project := by simpa using List.find?_some hfind
    exact congrArg some (hh.names d (List.mem_of_find?_eq_some hfind) c hc (hd.trans hname.symm))

theorem claimIdentity_yields {c : Resource} (hh : h.WellFormed) (hc : c ∈ h.containers)
    (hname : c.name = claimName project) (hproject : getItem projectLabel c.labels = some project)
    (hclaim : c.claimant = some w) (hw : matchesHex 32 w = true) :
    verification.Yields w (claimIdentity project) h (some (c.id, w)) h := by
  have hout : does w (.inspect (claimName project)) h (some ⟨0, some (.object (inspected c))⟩) h :=
    ⟨rfl, fun out heq => ⟨c, resolve_claimName hh hc hname, (Option.some.inj heq).symm⟩⟩
  refine .call hout ?_
  have hid : recordedIdentity project (.object (inspected c)) = some (c.id, w) :=
    recordedIdentity_inspected.mpr ⟨⟨rfl, hname, hproject, hclaim⟩, (hh.ids c hc).1, hw⟩
  show verification.Yields w (.ret (recordedIdentity project (.object (inspected c)))) h _ h
  rw [hid]
  exact .ret _ h

/-- The owner's claim is read back from its receipt. -/
theorem ownedClaim_yields (hh : h.WellFormed) (hproject : matchesProject project = true)
    (hw : matchesHex 32 w = true) (howns : h.Owns identifier w project) :
    verification.Yields w (ownedClaim project w) h (some identifier) h := by
  obtain ⟨⟨recorded, hreceipt, hrecorded⟩, c, hc, rfl, hname, hlabel, hclaim⟩ := howns
  unfold ownedClaim validateProject validateInvocation
  rw [if_pos hproject, if_pos hw]
  have hread : does w .readReceipt h (.json recorded) h :=
    ⟨rfl, nofun, fun j hj => by cases hj; exact hreceipt⟩
  refine .bind (.ret () h) (.bind (.ret () h) ?_)
  refine .bind (p := issue .readReceipt) (.call hread (.ret _ h)) ?_
  dsimp only
  rw [hrecorded]
  refine .bind (claimIdentity_yields hh hc hname hlabel hclaim hw) ?_
  rw [if_pos rfl]
  exact .ret _ h

/-- `has_ownership` answers true to the owner and to nobody else. -/
theorem answers_iff_owns (hh : h.WellFormed) :
    Answers w project h ↔ (matchesProject project = true ∧ matchesHex 32 w = true) ∧
      ∃ identifier, h.Owns identifier w project := by
  constructor
  · intro hy
    refine ⟨?_, (triple_hasOwnership (o := .hasOwnership project) h hh trivial).yields hh hy rfl⟩
    by_contra hinvalid
    obtain ⟨e, he⟩ := hasOwnership_invalid hinvalid
    unfold Answers at hy
    rw [he] at hy
    cases hy
  · rintro ⟨⟨hproject, hw⟩, identifier, howns⟩
    exact .bind (ownedClaim_yields hh hproject hw howns) (.ret (some true) h)

/-- A container is the claim of one invocation. -/
theorem Owns.unique (hh : h.WellFormed) {i j : String} (hv : h.Owns i v project)
    (hw : h.Owns j w project) : v = w := by
  obtain ⟨-, c, hc, -, hcname, -, hcv⟩ := hv
  obtain ⟨-, d, hd, -, hdname, -, hdw⟩ := hw
  obtain rfl := hh.names c hc d hd (hcname.trans hdname.symm)
  rw [hcv] at hdw
  exact Option.some.inj hdw

/-! ### Runs -/

/-- What an operation that returns has shown. -/
def Shown (invocation : String) : Operation → Option Bool → Host → Prop
  | .hasOwnership project, answer, h => answer = some true → Answers invocation project h
  | _, _, _ => True

theorem triple_body (w : String) (o : Operation) :
    exclusion.Triple w o (fun _ => True) (verification.body w o) (Shown w o)
      fun _ _ => True := by
  cases o with
  | acquire project => exact triple_acquire
  | cleanupOwned project release => exact triple_cleanupOwned
  | hasOwnership project =>
    by_cases hvalid : matchesProject project = true ∧ matchesHex 32 w = true
    · exact triple_hasOwnership.mono (fun _ _ h => h)
        (fun _ _ hh h hr => (answers_iff_owns hh).mpr ⟨hvalid, h hr⟩) fun _ _ _ h => h
    · obtain ⟨e, he⟩ := hasOwnership_invalid hvalid
      show exclusion.Triple w _ _ (hasOwnership project w) _ _
      rw [he]
      exact .raise (.const True) fun _ _ _ => trivial

/-- Only a removal takes a resource away. -/
theorem does_loses {c : Command} {a : c.Response} {h' : Host} {kind : ResourceKind} {r : Resource}
    (hd : does w c h a h') (hr : r ∈ h.resources kind) (hn : r ∉ h'.resources kind) :
    ∃ ref, c = .remove kind ref ∧ Host.resolve (h.resources kind) ref = some r ∧
      h' = h.remove kind ref := by
  cases c with
  | composeConfig => exact (hn (hd ▸ hr)).elim
  | create name labels image =>
    rcases hd with ⟨rfl, -⟩ | ⟨id, -, rfl, -⟩
    · exact (hn hr).elim
    · refine (hn ?_).elim
      by_cases hk : kind = .container
      · subst hk
        show r ∈ (h.create id name labels).containers
        rw [Host.create_containers]
        exact List.mem_cons_of_mem _ hr
      · simpa [Host.create, Host.setResources, hk] using hr
  | list kind filter => exact (hn (hd.1 ▸ hr)).elim
  | inspect name => exact (hn (hd.1 ▸ hr)).elim
  | remove kind' ref =>
    rcases hd with ⟨rfl, -⟩ | rfl
    · exact (hn hr).elim
    · by_contra hne
      refine hn (Host.mem_remove.mpr ⟨hr, ?_⟩)
      rintro ⟨rfl, hres⟩
      exact hne ⟨ref, rfl, hres, rfl⟩
  | receiptExists => exact (hn (hd.1 ▸ hr)).elim
  | readReceipt => exact (hn (hd.1 ▸ hr)).elim
  | writeReceipt record =>
    rcases hd with ⟨-, rfl | ⟨-, debris, rfl⟩⟩ | ⟨-, -, rfl⟩
    · exact (hn hr).elim
    · exact (hn hr).elim
    · exact (hn hr).elim
  | unlinkReceipt =>
    rcases hd with ⟨-, rfl⟩ | rfl
    · exact (hn hr).elim
    · exact (hn hr).elim

theorem Elsewhere.loses {h' : Host} {r : Resource} (he : Elsewhere h h')
    (hr : r ∈ h.containers) (hn : r ∉ h'.containers) : r.claimant = none := by
  by_contra hclaim
  obtain ⟨w, hw⟩ := Option.ne_none_iff_exists'.mp hclaim
  exact hn ((he.relies (w := w)).kept r hr hw)

/-- **Step**: what an invocation takes away is its own claim, or is no claim and taken by its
`cleanup_owned` under its claim. -/
theorem permitted_loses {c : Command} {a : c.Response} {h' : Host} {o : Operation}
    {kind : ResourceKind} {r : Resource} (hh : h.WellFormed) (hok : Permitted w o c h)
    (hd : does w c h a h') (hr : r ∈ h.resources kind) (hn : r ∉ h'.resources kind) :
    (kind = .container ∧ r.claimant = some w) ∨
      (kind = .container → r.claimant = none) ∧ ∃ project release,
        o = .cleanupOwned project release ∧ h.Claims w project ∧ h'.Claims w project := by
  obtain ⟨ref, rfl, hres, rfl⟩ := does_loses hd hr hn
  rcases hok with ⟨rfl, project, hclaimed⟩ | ⟨project, release, rfl, ⟨i, hclaimed⟩, hharm⟩
  · obtain ⟨d, hdmem, rfl, -, -, hw⟩ := hclaimed
    have hone := Host.resolve_id hdmem fun e he heq => hh.shortIds e he d hdmem
      (congrArg shortId heq)
    rw [hone] at hres
    cases hres
    exact .inl ⟨rfl, hw⟩
  · have hnone : kind = .container → r.claimant = none := by
      rintro rfl
      exact (hharm rfl).resolve hh hres
    refine .inr ⟨hnone, project, release, rfl, ⟨i, hclaimed⟩, i, ?_⟩
    obtain ⟨d, hdmem, hid, hname, hproject, hclaim⟩ := hclaimed
    refine ⟨d, Host.mem_remove.mpr ⟨hdmem, ?_⟩, hid, hname, hproject, hclaim⟩
    rintro ⟨rfl, hres'⟩
    rw [hres] at hres'
    cases hres'
    rw [hnone rfl] at hclaim
    cases hclaim

/-- **Ownership is exclusive.**  In every interleaving at most one invocation is answered true for
a project, also by a call that has not returned yet; a claim container is taken away by nobody but
its invocation; and what else an invocation takes away, it takes in `cleanup_owned`, before and
after which its claim exists. -/
theorem ownership_exclusive {h : Host}
    {c : Config String Operation Command Command.Response ScriptError (Option Bool) Host}
    (hh : h.WellFormed) (hreach : verification.Reaches h c) :
    (∀ project v w, Answers v project c.shared → Answers w project c.shared → v = w) ∧
    (∀ project w, c.running w = some (.hasOwnership project, .ret (some true)) →
      Answers w project c.shared) ∧
    ∀ a c', verification.Step c a c' →
      (∀ r ∈ c.shared.containers, r ∉ c'.shared.containers → ∀ v, r.claimant = some v →
        a = some v) ∧
      ∀ w, a = some w → ∀ kind, ∀ r ∈ c.shared.resources kind, r ∉ c'.shared.resources kind →
        (kind = .container ∧ r.claimant = some w) ∨
        ∃ project release p, c.running w = some (.cleanupOwned project release, p) ∧
          c.shared.Claims w project ∧ c'.shared.Claims w project := by
  obtain ⟨hinv, hsafe⟩ := safe_of_reaches triple_body (D := exclusion) hh hreach
  refine ⟨fun project v w hv hw => ?_, fun project w hw => ?_, fun a c' hstep => ?_⟩
  · obtain ⟨-, i, hi⟩ := (answers_iff_owns hinv).mp hv
    obtain ⟨-, j, hj⟩ := (answers_iff_owns hinv).mp hw
    exact Owns.unique hinv hi hj
  · exact hsafe w _ _ hw c.shared hinv (Relies.refl w _) rfl
  · cases hstep with
    | start o hw => exact ⟨fun r hr hn => (hn hr).elim, fun _ _ _ r hr hn => (hn hr).elim⟩
    | leave w => exact ⟨fun r hr hn => (hn hr).elim, fun _ _ _ r hr hn => (hn hr).elim⟩
    | env he =>
      refine ⟨fun r hr hn v hv => ?_, nofun⟩
      rw [he.loses hr hn] at hv
      cases hv
    | @call w o x k answer s hw hd =>
      obtain ⟨hok, -⟩ := hsafe w o _ hw c.shared hinv (Relies.refl w _)
      have hloses := fun kind r hr hn =>
        @permitted_loses _ _ _ _ _ _ kind r hinv hok hd hr hn
      refine ⟨fun r hr hn v hv => ?_, fun v hv kind r hr hn => ?_⟩
      · rcases hloses .container r hr hn with ⟨-, hown⟩ | ⟨hnone, -⟩
        · rw [hv] at hown
          exact hown.symm
        · rw [hnone rfl] at hv
          cases hv
      · cases hv
        rcases hloses kind r hr hn with hown | ⟨-, project, release, rfl, hclaims⟩
        · exact .inl hown
        · exact .inr ⟨project, release, _, hw, hclaims⟩

end

/-- An identifier of `n` equal digits. -/
def digits (n : ℕ) (c : Char) : String := String.ofList (List.replicate n c)

theorem matchesHex_digits (n : ℕ) {c : Char} (hc : c ∈ hexChars) :
    matchesHex n (digits n c) = true := by
  refine Host.matchesHex_iff.mpr ⟨by simp [digits], fun d hd => ?_⟩
  rw [digits, String.toList_ofList] at hd
  exact (List.eq_of_mem_replicate hd).symm ▸ hc

/-! ### Two invocations meet on a project -/

section

/-- Nothing has been created yet. -/
def noHost : Host := ⟨fun _ => [], [], fun _ => none⟩

def sampleProject : String := "correlia-verify-a"

def sampleInvocation : String := digits 32 'a'

def otherInvocation : String := digits 32 'b'

def sampleClaim : Resource :=
  ⟨digits 64 'a', claimName sampleProject, claimLabels sampleProject sampleInvocation⟩

/-- The claim container has been created. -/
def createdHost : Host := noHost.create sampleClaim.id sampleClaim.name sampleClaim.labels

/-- And the receipt has been written. -/
def claimedHost : Host :=
  createdHost.setReceipt sampleInvocation
    (some (some (receiptRecord sampleProject sampleInvocation sampleClaim.id)))

theorem sampleProject_matches : matchesProject sampleProject = true := by decide +kernel

theorem sampleInvocation_matches : matchesHex 32 sampleInvocation = true :=
  matchesHex_digits 32 (by decide)

theorem otherInvocation_matches : matchesHex 32 otherInvocation = true :=
  matchesHex_digits 32 (by decide)

theorem sampleClaim_matches : matchesHex 64 sampleClaim.id = true := matchesHex_digits 64 (by decide)

theorem noHost_wellFormed : noHost.WellFormed :=
  ⟨fun _ hc => (List.not_mem_nil hc).elim, fun _ hc => (List.not_mem_nil hc).elim,
    fun _ hc => (List.not_mem_nil hc).elim, fun _ hc => (List.not_mem_nil hc).elim⟩

theorem noHost_canCreate : noHost.CanCreate sampleClaim.name sampleClaim.id :=
  ⟨fun _ hc => (List.not_mem_nil hc).elim, sampleClaim_matches, List.not_mem_nil⟩

theorem createdHost_wellFormed : createdHost.WellFormed :=
  noHost_wellFormed.create noHost_canCreate fun _ => ⟨⟨sampleProject, rfl⟩, rfl⟩

theorem claimedHost_wellFormed : claimedHost.WellFormed :=
  createdHost_wellFormed.of_subset (fun _ hc => hc) rfl

variable {w : String} {h : Host}

theorem claimImage_yields : verification.Yields w claimImage h "postgres:18" h := by
  let config : Json := .object [("services", .object [("postgres", .object [("image",
    .string "postgres:18")])])]
  exact .call (r := some ⟨0, some config⟩) rfl (.ret _ h)

/-- Compose has created nothing. -/
def Vacant (h : Host) : Prop :=
  ∀ kind ∈ resourceKinds, h.listed kind (some (composeLabel, sampleProject)) = []

theorem createdHost_vacant : Vacant createdHost := by
  unfold Vacant
  decide +kernel

theorem list_does {kind : ResourceKind} (hvacant : Vacant h) (hkind : kind ∈ resourceKinds) :
    verification.does w (.list kind (some (composeLabel, sampleProject))) h (some ⟨0, []⟩) h :=
  ⟨rfl, fun out heq => by rw [hvacant kind hkind]; exact (Option.some.inj heq).symm⟩

theorem requireNoDataVolume_yields :
    verification.Yields w (requireNoDataVolume sampleProject) createdHost () createdHost := by
  unfold requireNoDataVolume postgresDataVolume validateProject
  rw [if_pos sampleProject_matches]
  exact .call (r := some ⟨0, []⟩) ⟨rfl, fun out heq => by cases heq; rfl⟩ (.ret () _)

theorem inspectAndRecord_yields : verification.Yields sampleInvocation
    (inspectAndRecord sampleProject sampleInvocation sampleClaim.id) createdHost ()
      claimedHost := by
  have hidentity : verification.Yields sampleInvocation (claimIdentity sampleProject) createdHost
      (some (sampleClaim.id, sampleInvocation)) createdHost :=
    claimIdentity_yields createdHost_wellFormed (c := sampleClaim) (List.mem_singleton_self _) rfl
      rfl rfl sampleInvocation_matches
  refine .bind (.forIn fun kind hkind => ?_) (.bind requireNoDataVolume_yields (.bind hidentity ?_))
  · exact .call (list_does createdHost_vacant hkind) (.ret _ _)
  · rw [if_neg (not_not.mpr rfl)]
    exact .call (r := true) (Or.inr ⟨rfl, rfl, rfl⟩) (.ret () _)

/-- The first invocation acquires the project. -/
theorem acquire_yields : verification.Yields sampleInvocation
    (acquire sampleProject sampleInvocation) noHost none claimedHost := by
  unfold acquire validateProject validateInvocation
  rw [if_pos sampleProject_matches, if_pos sampleInvocation_matches]
  refine .bind (.ret () _) (.bind (.ret () _) ?_)
  refine .bind (p := issue .receiptExists) (.call (r := false) ⟨rfl, rfl⟩ (.ret _ _)) ?_
  rw [if_neg Bool.false_ne_true]
  refine .bind claimImage_yields ?_
  have hsucceeded : succeeded (some ⟨0, sampleClaim.id⟩) = some sampleClaim.id := rfl
  refine .bind (p := issue (.create (claimName sampleProject) _ _))
    (.call (r := some ⟨0, sampleClaim.id⟩) (Or.inr ⟨_, noHost_canCreate, rfl, ?_⟩) (.ret _ _)) ?_
  · rintro out ⟨⟩
    rfl
  rw [hsucceeded]
  dsimp only
  rw [if_pos sampleClaim_matches]
  exact .bind inspectAndRecord_yields.onRaise (.ret none _)

theorem claimedHost_receipts : claimedHost.receipts = Function.update (fun _ => none)
    sampleInvocation (some (some (receiptRecord sampleProject sampleInvocation sampleClaim.id))) := rfl

theorem otherInvocation_ne : otherInvocation ≠ sampleInvocation := by decide +kernel

/-- The other one is refused: the name is taken. -/
theorem acquire_refused : verification.Runs otherInvocation
    (acquire sampleProject otherInvocation) claimedHost
    (.raise (.runtime "Docker verification namespace claim failed")) claimedHost := by
  have hreceipt : claimedHost.receipts otherInvocation = none := by
    rw [claimedHost_receipts, Function.update_of_ne otherInvocation_ne]
  unfold acquire validateProject validateInvocation
  rw [if_pos sampleProject_matches, if_pos otherInvocation_matches]
  refine .call (r := false) ⟨rfl, ?_⟩ ?_
  · rw [hreceipt]
    rfl
  refine claimImage_yields.bind_runs ?_
  exact .call (r := none) (Or.inl ⟨rfl, rfl⟩) (.refl _ _)

theorem claimedHost_owns : claimedHost.Owns sampleClaim.id sampleInvocation sampleProject := by
  have hhex := sampleClaim_matches
  refine ⟨⟨receiptRecord sampleProject sampleInvocation sampleClaim.id, ?_, ?_⟩, sampleClaim, List.mem_singleton_self _, rfl, rfl, rfl, rfl⟩
  · rw [claimedHost_receipts, Function.update_self]
  · simp [recordedClaim, receiptRecord, textAt, getItem, hhex]

/-- The owner's `has_ownership` returns true. -/
theorem hasOwnership_yields : verification.Yields sampleInvocation
    (hasOwnership sampleProject sampleInvocation) claimedHost (some true) claimedHost :=
  (answers_iff_owns claimedHost_wellFormed).mpr
    ⟨⟨sampleProject_matches, sampleInvocation_matches⟩, _, claimedHost_owns⟩

theorem claimedHost_vacant : Vacant claimedHost := createdHost_vacant

theorem cleanupResources_yields (hvacant : Vacant h) :
    verification.Yields w (cleanupResources sampleProject) h () h := by
  unfold cleanupResources
  refine .bind (a := false) (.forIn fun kind hkind => ?_)
    (.bind (a := false) (.forIn fun kind hkind => ?_) (.ret () h))
  · exact .bind (a := false) (.call (list_does hvacant hkind) (.ret false h)) (.ret _ h)
  · exact .call (list_does hvacant hkind) (.ret _ h)

/-- The owner's `cleanup_owned`, up to the release of its claim. -/
theorem cleanupOwned_runs : ∃ k, verification.Runs sampleInvocation
    (cleanupOwned sampleProject sampleInvocation true) claimedHost
    (.call (.remove .container sampleClaim.id) k) claimedHost := by
  have hidentity : verification.Yields sampleInvocation (claimIdentity sampleProject) claimedHost
      (some (sampleClaim.id, sampleInvocation)) claimedHost :=
    claimIdentity_yields claimedHost_wellFormed (c := sampleClaim) (List.mem_singleton_self _) rfl
      rfl rfl sampleInvocation_matches
  unfold cleanupOwned
  apply Exists.intro
  refine (ownedClaim_yields claimedHost_wellFormed sampleProject_matches sampleInvocation_matches
    claimedHost_owns).bind_runs ?_
  refine (cleanupResources_yields claimedHost_vacant).bind_runs ?_
  refine hidentity.bind_runs ?_
  rw [if_neg (not_not.mpr rfl), if_pos rfl]
  exact .refl _ _

/-- From an empty host: one invocation acquires the project, another is refused, the first is told
that it owns it and cleans up, and what it takes away is its claim. -/
theorem ownership_exclusive_contested : ∃ c d d',
    verification.Reaches noHost c ∧ verification.Reaches noHost d ∧
      verification.Step d (some sampleInvocation) d' ∧
      c.running sampleInvocation = some (.hasOwnership sampleProject, .ret (some true)) ∧
      (∃ e, c.running otherInvocation = some (.acquire sampleProject, .raise e)) ∧
      Answers sampleInvocation sampleProject c.shared ∧
      ¬Answers otherInvocation sampleProject c.shared ∧
      sampleClaim ∈ d.shared.containers ∧ sampleClaim ∉ d'.shared.containers ∧
      ∀ v, sampleClaim.claimant = some v → some sampleInvocation = some v := by
  have hstart : verification.Reaches noHost ⟨noHost, fun _ => none⟩ := .refl
  have hacquire : verification.Runs sampleInvocation
      (verification.body sampleInvocation (.acquire sampleProject)) noHost (.ret none) claimedHost :=
    acquire_yields.runs
  have hrefused : verification.Runs otherInvocation
      (verification.body otherInvocation (.acquire sampleProject)) claimedHost _ claimedHost :=
    acquire_refused
  have hanswer : verification.Runs sampleInvocation
      (verification.body sampleInvocation (.hasOwnership sampleProject)) claimedHost
      (.ret (some true)) claimedHost := hasOwnership_yields.runs
  obtain ⟨k, hruns⟩ := cleanupOwned_runs
  have hcleanup : verification.Runs sampleInvocation
      (verification.body sampleInvocation (.cleanupOwned sampleProject true)) claimedHost _
      claimedHost := hruns
  have hacquired := hstart.begins rfl hacquire
  have hmet := (hacquired.leaves sampleInvocation).begins (w := otherInvocation) (by
    rw [Function.update_of_ne otherInvocation_ne, Function.update_of_ne otherInvocation_ne]) hrefused
  have htold := hmet.begins (w := sampleInvocation) (by
    rw [Function.update_of_ne otherInvocation_ne.symm, Function.update_self]) hanswer
  have hcleans := (htold.leaves sampleInvocation).begins (w := sampleInvocation)
    (Function.update_self ..) hcleanup
  have hclaim : sampleClaim ∈ claimedHost.containers := List.mem_singleton_self _
  have hresolve : Host.resolve claimedHost.containers sampleClaim.id = some sampleClaim :=
    Host.resolve_id hclaim fun c hc _ => List.mem_singleton.mp hc
  have hgone : sampleClaim ∉ (claimedHost.remove .container sampleClaim.id).containers :=
    fun hmem => (Host.mem_remove.mp hmem).2 ⟨rfl, hresolve⟩
  have hdoes : verification.does sampleInvocation (.remove .container sampleClaim.id) claimedHost
      (some ⟨0, ()⟩) (claimedHost.remove .container sampleClaim.id) := Or.inr rfl
  have hremoves (running) (hw : running sampleInvocation =
      some (.cleanupOwned sampleProject true, .call (.remove .container sampleClaim.id) k)) :=
    Workload.Step.call (c := ⟨claimedHost, running⟩) hw hdoes
  have hc := ownership_exclusive noHost_wellFormed htold
  have hd := ownership_exclusive noHost_wellFormed hcleans
  have howner := hc.2.1 sampleProject sampleInvocation (by simp only [Function.update_self])
  refine ⟨_, _, _, htold, hcleans, hremoves _ (Function.update_self ..), ?_,
    ⟨.runtime "Docker verification namespace claim failed", ?_⟩, howner, ?_, hclaim, hgone, ?_⟩
  · simp only [Function.update_self]
  · dsimp only
    rw [Function.update_of_ne otherInvocation_ne, Function.update_self]
  · exact fun h => otherInvocation_ne (hc.1 _ _ _ h howner)
  · exact (hd.2.2 _ _ (hremoves _ (Function.update_self ..))).1 sampleClaim hclaim hgone

end

end Correlia
