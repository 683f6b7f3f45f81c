import ReactorCloud.Deployments.Store
import ReactorCloud.Rust.Str

/-!
This module contains the resolution of a host header to a site and a deployment. A host is compared with the
texts of the table as it stands, and the rest of a preview host is not looked at.
-/

namespace Reactor.Sites

open Reactor.Deployments
open Relational (Table Constrained)
open Rust (Uuid)

inductive DomainStatus where
  | pending
  | verified
  | active
  | failed
  deriving DecidableEq, Repr

structure Domain where
  id : Uuid
  siteId : Uuid
  host : String
  status : DomainStatus
  deriving DecidableEq, Repr

instance : Constrained Domain where
  conflict d e := d.id == e.id || d.host == e.host
  conflict_comm d e := by
    rw [BEq.comm, @BEq.comm _ _ _ d.host]

structure HostTables extends Tables where
  domains : Table Domain

namespace HostTables

def getSiteById (db : HostTables) (id : Uuid) : Option Owner :=
  db.owners.find? (·.id == id)

/--
The domain joined with its site and the current deployment of the site.
-/
def getSiteByHost (db : HostTables) (host : String) : Option (Owner × Deployment) := do
  let dom ← db.domains.find? (fun dom => dom.host == host && dom.status == .active)
  let site ← db.getSiteById dom.siteId
  let id ← site.currentDeploymentId
  let deployment ← db.deployments.get id
  some (site, deployment)

end HostTables

structure ResolvedHost where
  site : Owner
  deployment : Deployment
  isPreview : Bool
  deriving DecidableEq, Repr

structure PreviewHostInfo where
  deploymentId : Uuid
  siteHost : String

def parsePreviewHost (host : String) : Option PreviewHostInfo :=
  let parts := Rust.Str.splitOnChar '.' host
  if 4 ≤ parts.length then
    match parts with
    | deploymentId :: label :: rest =>
      if label == "preview" then
        (Uuid.parseStr deploymentId).map fun id => ⟨id, Rust.Str.joinWith "." rest⟩
      else
        none
    | _ => none
  else
    none

def stripSuffix (suffix : String) (s : String) : Option String :=
  if suffix.toList.isSuffixOf s.toList then
    some (String.ofList (s.toList.take (s.toList.length - suffix.toList.length)))
  else
    none

def parseReactorHost (host : String) : Option String := do
  let withoutSuffix ← stripSuffix ".reactor.app" host
  (Rust.Str.splitOnChar '.' withoutSuffix).head?

def resolvePreview (db : HostTables) (deploymentId : Uuid) (_siteHost : String) : Option ResolvedHost := do
  let deployment ← db.deployments.get deploymentId
  let site ← db.getSiteById deployment.ownerId
  some ⟨site, deployment, true⟩

def resolveByPattern (_siteName : String) : Option ResolvedHost :=
  none

def resolve (db : HostTables) (host : String) : Option ResolvedHost :=
  match parsePreviewHost host with
  | some info => resolvePreview db info.deploymentId info.siteHost
  | none =>
    match db.getSiteByHost host with
    | some (site, deployment) => some ⟨site, deployment, false⟩
    | none => (parseReactorHost host).bind resolveByPattern

/-! ## What is to be shown -/

/--
A host header without its port.
-/
def withoutPort (h : List Char) : List Char :=
  match h.reverse.dropWhile Char.isDigit with
  | ':' :: host => host.reverse
  | _ => h

def lower (h : List Char) : List Char :=
  h.map Char.toLower

/--
The header names the host.
-/
def Spells (h host : String) : Prop :=
  lower (withoutPort h.toList) = lower host.toList

/--
The header names the preview of the deployment on the host.
-/
def SpellsPreview (h : String) (id : Uuid) (host : String) : Prop :=
  ∃ label, Uuid.parseStr label = some id
    ∧ lower (withoutPort h.toList) = label.toList ++ ".preview.".toList ++ lower host.toList

section

variable (db : HostTables)

/--
The domain is active, and the deployment is the current one of its site.
-/
structure Serves (dom : Domain) (site : Owner) (deployment : Deployment) : Prop where
  listed : dom ∈ db.domains
  active : dom.status = .active
  known : site ∈ db.owners
  owns : site.id = dom.siteId
  stored : deployment ∈ db.deployments
  current : site.currentDeploymentId = some deployment.id

def Owned (h : String) (site : Owner) (deployment : Deployment) : Prop :=
  ∃ dom, Serves db dom site deployment ∧ Spells h dom.host

/--
The deployment and the site it was made for.
-/
structure Deployed (id : Uuid) (site : Owner) (deployment : Deployment) : Prop where
  stored : deployment ∈ db.deployments
  named : deployment.id = id
  known : site ∈ db.owners
  owns : site.id = deployment.ownerId

def Previewed (h : String) (site : Owner) (deployment : Deployment) : Prop :=
  Deployed db deployment.id site deployment ∧ deployment.status = .ready
    ∧ ∃ dom ∈ db.domains, dom.status = .active ∧ dom.siteId = site.id
      ∧ SpellsPreview h deployment.id dom.host

structure ServesOwner (h : String) (resolved : Option ResolvedHost) : Prop where
  sound : ∀ r, resolved = some r → Owned db h r.site r.deployment ∨ Previewed db h r.site r.deployment
  complete : ∀ site deployment, Owned db h site deployment →
    ∃ isPreview, resolved = some ⟨site, deployment, isPreview⟩

/--
The domain with the very text of the header.
-/
def Named (h : String) (site : Owner) (deployment : Deployment) : Prop :=
  ∃ dom, Serves db dom site deployment ∧ dom.host = h

/--
What the header spells in any letter case and with any port is what it spells to the letter.
-/
def SpelledOut (h : String) : Prop :=
  match parsePreviewHost h with
  | some info =>
    (∀ site deployment, Deployed db info.deploymentId site deployment →
      Owned db h site deployment ∨ Previewed db h site deployment)
    ∧ ∀ site deployment, Owned db h site deployment →
      deployment.id = info.deploymentId ∧ deployment.ownerId = site.id
  | none =>
    (∀ site deployment, Named db h site deployment →
      Owned db h site deployment ∨ Previewed db h site deployment)
    ∧ ∀ site deployment, Owned db h site deployment → Named db h site deployment

end

/-! ## Look-ups -/

section LookUps

variable {db : HostTables} {h : String} {site : Owner} {deployment : Deployment} {id : Uuid}

theorem getSiteById_eq_some : db.getSiteById id = some site ↔ site ∈ db.owners ∧ site.id = id := by
  unfold HostTables.getSiteById
  constructor
  . intro heq
    exact ⟨Table.mem_of_find? heq, by simpa using Table.prop_of_find? heq⟩
  . rintro ⟨hmem, rfl⟩
    apply Table.find?_eq_some hmem (by simp)
    intro s hs
    simp only [beq_iff_eq] at hs
    simp [Constrained.conflict, hs]

theorem get_eq_some : db.deployments.get id = some deployment ↔ deployment ∈ db.deployments ∧ deployment.id = id := by
  unfold DeploymentTable.get
  constructor
  . intro heq
    exact ⟨Table.mem_of_find? heq, by simpa using Table.prop_of_find? heq⟩
  . rintro ⟨hmem, rfl⟩
    apply Table.find?_eq_some hmem (by simp)
    intro s hs
    simp only [beq_iff_eq] at hs
    simp [Constrained.conflict, hs]

theorem findDomain_eq_some {dom : Domain}
    : db.domains.find? (fun dom => dom.host == h && dom.status == .active) = some dom
      ↔ dom ∈ db.domains ∧ dom.host = h ∧ dom.status = .active := by
  constructor
  . intro heq
    have hprop := Table.prop_of_find? heq
    simp only [Bool.and_eq_true, beq_iff_eq] at hprop
    exact ⟨Table.mem_of_find? heq, hprop⟩
  . rintro ⟨hmem, rfl, hactive⟩
    apply Table.find?_eq_some hmem (by simp [hactive])
    intro s hs
    simp only [Bool.and_eq_true, beq_iff_eq] at hs
    simp [Constrained.conflict, hs.1]

theorem getSiteByHost_eq_some
    : db.getSiteByHost h = some (site, deployment) ↔ Named db h site deployment := by
  simp only [HostTables.getSiteByHost, Option.bind_eq_bind, Option.bind_eq_some_iff, findDomain_eq_some,
    getSiteById_eq_some, get_eq_some, Option.some.injEq, Prod.mk.injEq]
  constructor
  . rintro ⟨dom, ⟨hdom, hhost, hactive⟩, _, ⟨hsite, howns⟩, _, hcurrent, _, ⟨hdeployment, rfl⟩, rfl, rfl⟩
    exact ⟨dom, ⟨hdom, hactive, hsite, howns, hdeployment, hcurrent⟩, hhost⟩
  . rintro ⟨dom, hserves, hhost⟩
    exact ⟨dom, ⟨hserves.listed, hhost, hserves.active⟩, site, ⟨hserves.known, hserves.owns⟩, deployment.id,
      hserves.current, deployment, ⟨hserves.stored, rfl⟩, rfl, rfl⟩

theorem resolvePreview_eq_some {siteHost : String} {r : ResolvedHost}
    : resolvePreview db id siteHost = some r ↔ Deployed db id r.site r.deployment ∧ r.isPreview = true := by
  simp only [resolvePreview, Option.bind_eq_bind, Option.bind_eq_some_iff, getSiteById_eq_some, get_eq_some,
    Option.some.injEq]
  constructor
  . rintro ⟨deployment, ⟨hdeployment, hid⟩, site, ⟨hsite, howns⟩, rfl⟩
    exact ⟨⟨hdeployment, hid, hsite, howns⟩, rfl⟩
  . rintro ⟨hdeployed, hpreview⟩
    refine ⟨r.deployment, ⟨hdeployed.stored, hdeployed.named⟩, r.site, ⟨hdeployed.known, hdeployed.owns⟩, ?_⟩
    rw [← hpreview]

theorem resolve_of_preview {info : PreviewHostInfo} (hparse : parsePreviewHost h = some info) {r : ResolvedHost}
    : resolve db h = some r ↔ Deployed db info.deploymentId r.site r.deployment ∧ r.isPreview = true := by
  rw [resolve, hparse]
  exact resolvePreview_eq_some

theorem resolve_of_not_preview (hparse : parsePreviewHost h = none) {r : ResolvedHost}
    : resolve db h = some r ↔ Named db h r.site r.deployment ∧ r.isPreview = false := by
  rw [resolve, hparse, ← getSiteByHost_eq_some]
  cases hfound : db.getSiteByHost h with
  | none => cases hreactor : parseReactorHost h <;> simp [resolveByPattern]
  | some found =>
    obtain ⟨site, deployment⟩ := found
    cases r
    simp [and_assoc, eq_comm]

end LookUps

/--
A host as it is stored, where all domains are stored in small letters and without a port.
-/
theorem spelledOut_of_plain {db : HostTables} {h : String} (hport : withoutPort h.toList = h.toList)
    (hlower : lower h.toList = h.toList) (hstored : ∀ dom ∈ db.domains, lower dom.host.toList = dom.host.toList)
    (hpreview : parsePreviewHost h = none) : SpelledOut db h := by
  have hspells : ∀ dom ∈ db.domains, Spells h dom.host ↔ dom.host = h := by
    intro dom hdom
    rw [Spells, hport, hlower, hstored dom hdom, String.toList_inj, eq_comm]
  simp only [SpelledOut, hpreview]
  constructor
  . rintro site deployment ⟨dom, hserves, hhost⟩
    exact .inl ⟨dom, hserves, (hspells dom hserves.listed).mpr hhost⟩
  . rintro site deployment ⟨dom, hserves, hspelled⟩
    exact ⟨dom, hserves, (hspells dom hserves.listed).mp hspelled⟩

/-! ## A preview of a stranger -/

def shop : Owner := ⟨1, 0, "shop", some 11⟩

def stranger : Owner := ⟨2, 7, "stranger", none⟩

/--
A deployment of the stranger that was never finished.
-/
def draft : Deployment := ⟨22, 2, 1, .pending, 0⟩

def shopDomain : Domain := ⟨31, 1, "www.shop.example", .active⟩

def twoSites : HostTables where
  owners := ⟨[shop, stranger], by decide⟩
  deployments := ⟨⟨[⟨11, 1, 1, .ready, 1⟩, draft], by decide⟩, by decide⟩
  domains := ⟨[shopDomain], by decide⟩

def strangeHost : String :=
  "00000000-0000-0000-0000-000000000016.preview.www.shop.example"

end Reactor.Sites
