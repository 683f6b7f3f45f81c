import ReactorCloud.Http.UrlPath
import ReactorCloud.Sites.FirstMatch

/-!
This module contains the objects that are asked for when a site serves a static file. The storage key may hold
text of the request, and it is the reader of the URL that takes dot segments out.
-/

namespace Reactor.Sites

open Http.Pattern (PatternRouter listRouter)
open Http.UrlPath (Below Plain climb join normalize)
open Rust (Uuid)

def sitesBucket : String :=
  "_reactor_sites"

/--
The URL of an object behind the base URL, which has no path of its own.
-/
def objectUrl (bucket key : String) : String :=
  "/storage/v1/object/" ++ bucket ++ "/" ++ key

def trimStartSlashes (storageKey : String) : String :=
  String.ofList (storageKey.toList.dropWhile (· == '/'))

/--
What is put after the key: the index of a directory, nothing after an extension, or what it may lack.
-/
def suffixes (storageKey : String) : List String :=
  if storageKey.toList.getLast? == some '/' || storageKey.isEmpty then
    ["index.html", ""]
  else if storageKey.toList.contains '.' then
    [""]
  else
    ["", "/index.html", ".html"]

structure Served where
  requested : List String
  file : Option (String × List UInt8)

/--
`stored` is what the storage answers for a key.
-/
def tryPaths (stored : String → Option (List UInt8)) : List String → Served
  | [] => ⟨[], none⟩
  | key :: keys =>
    match stored key with
    | some bytes => ⟨[objectUrl sitesBucket key], some (key, bytes)⟩
    | none =>
      let served := tryPaths stored keys
      { served with requested := objectUrl sitesBucket key :: served.requested }

def serveStatic (stored : String → Option (List UInt8)) (deploymentId : Uuid) (storageKey : String) : Served :=
  let baseKey := deploymentId.hyphenated ++ "/static/" ++ trimStartSlashes storageKey
  tryPaths stored ((suffixes storageKey).map (baseKey ++ ·))

def RouteDecision.storageKey? : RouteDecision → Option String
  | .staticFile storageKey _ => some storageKey
  | .prerender storageKey _ _ => some storageKey
  | _ => none

/-! ## What is to be shown -/

def ownDirectory (deploymentId : Uuid) : List Http.UrlPath.Segment :=
  ["storage", "v1", "object", sitesBucket, deploymentId.hyphenated, "static"].map String.toList

/--
Every object that is asked for is one of the deployment.
-/
def OwnFilesOnly (deploymentId : Uuid) (storageKey : String) : Prop :=
  ∀ stored, ∀ url ∈ (serveStatic stored deploymentId storageKey).requested,
    Below (ownDirectory deploymentId) (normalize (url.toList.drop 1))

/--
The dot segments of the text climb above its start by as many levels as it then names again.
-/
def NamesAgain (deploymentId : Uuid) (text : List Char) : Prop :=
  (ownDirectory deploymentId).reverse.take (climb text).1 <:+ (climb text).2

/--
No key that is tried leaves the directory of the deployment.
-/
def Contained (deploymentId : Uuid) (storageKey : String) : Prop :=
  ∀ suffix ∈ suffixes storageKey,
    NamesAgain deploymentId ((trimStartSlashes storageKey).toList ++ suffix.toList)

section Keys

variable {deploymentId : Uuid} {storageKey : String}

theorem plain_ownDirectory (deploymentId : Uuid) : ∀ segment ∈ ownDirectory deploymentId, Plain segment := by
  have hid : Plain deploymentId.hyphenated.toList := by
    constructor
    . intro c hc
      have hall : ∀ c ∈ "-0123456789abcdef".toList, Http.UrlPath.isSeparator c = false
          ∧ Http.UrlPath.isTabOrNewline c = false ∧ Http.UrlPath.startsQuery c = false :=
        List.all_iff_forall_prop.mp (by decide)
      exact hall c (Uuid.mem_hyphenated hc)
    . apply Http.UrlPath.not_dots_of_length
      rw [Uuid.length_hyphenated]
      omega
  intro segment hsegment
  simp only [ownDirectory, List.map_cons, List.map_nil, List.mem_cons, List.not_mem_nil, or_false] at hsegment
  rcases hsegment with rfl | rfl | rfl | rfl | rfl | rfl
  . exact ⟨List.all_iff_forall_prop.mp (by decide), by decide⟩
  . exact ⟨List.all_iff_forall_prop.mp (by decide), by decide⟩
  . exact ⟨List.all_iff_forall_prop.mp (by decide), by decide⟩
  . exact ⟨List.all_iff_forall_prop.mp (by decide), by decide⟩
  . exact hid
  . exact ⟨List.all_iff_forall_prop.mp (by decide), by decide⟩

theorem objectUrl_path (suffix : String)
    : (objectUrl sitesBucket (deploymentId.hyphenated ++ "/static/" ++ trimStartSlashes storageKey ++ suffix)).toList.drop 1
      = join (ownDirectory deploymentId) ++ ((trimStartSlashes storageKey).toList ++ suffix.toList) := by
  unfold objectUrl
  simp only [String.toList_append, join, ownDirectory, List.map_cons, List.map_nil, List.flatMap_cons,
    List.flatMap_nil, List.append_assoc]
  generalize deploymentId.hyphenated.toList = idText
  generalize (trimStartSlashes storageKey).toList = keyText
  generalize suffix.toList = suffixText
  rfl

theorem below_iff_namesAgain (suffix : String)
    : Below (ownDirectory deploymentId) (normalize ((objectUrl sitesBucket
        (deploymentId.hyphenated ++ "/static/" ++ trimStartSlashes storageKey ++ suffix)).toList.drop 1))
      ↔ NamesAgain deploymentId ((trimStartSlashes storageKey).toList ++ suffix.toList) := by
  rw [objectUrl_path]
  exact Http.UrlPath.below_iff (by simp [ownDirectory]) (plain_ownDirectory deploymentId)

theorem requested_of_mem {stored : String → Option (List UInt8)} {keys : List String} {url : String}
    (h : url ∈ (tryPaths stored keys).requested) : ∃ key ∈ keys, url = objectUrl sitesBucket key := by
  induction keys with
  | nil => cases h
  | cons key keys ih =>
    simp only [tryPaths] at h
    split at h
    . exact ⟨key, List.mem_cons_self, List.mem_singleton.mp h⟩
    . cases h with
      | head => exact ⟨key, List.mem_cons_self, rfl⟩
      | tail _ h =>
        obtain ⟨key, hkey, heq⟩ := ih h
        exact ⟨key, List.mem_cons_of_mem _ hkey, heq⟩

/--
Where the storage has nothing, every key is tried.
-/
theorem requested_of_empty (keys : List String)
    : (tryPaths (fun _ => none) keys).requested = keys.map (objectUrl sitesBucket) := by
  induction keys with
  | nil => rfl
  | cons key keys ih => rw [List.map_cons, ← ih, tryPaths]

theorem ownFilesOnly_iff : OwnFilesOnly deploymentId storageKey ↔ Contained deploymentId storageKey := by
  constructor
  . intro h suffix hsuffix
    rw [← below_iff_namesAgain]
    apply h (fun _ => none)
    rw [serveStatic, requested_of_empty, List.map_map]
    exact List.mem_map.mpr ⟨suffix, hsuffix, rfl⟩
  . intro h stored url hurl
    obtain ⟨key, hkey, rfl⟩ := requested_of_mem hurl
    obtain ⟨suffix, hsuffix, rfl⟩ := List.mem_map.mp hkey
    rw [below_iff_namesAgain]
    exact h suffix hsuffix

/--
A key without double dots is contained, whatever else is in it.
-/
theorem namesAgain_of_not_doubleDot {text : List Char}
    (h : ∀ segment ∈ Http.UrlPath.segments (Http.UrlPath.pathText text), Http.UrlPath.isDoubleDot segment = false)
    : NamesAgain deploymentId text := by
  rw [NamesAgain, Http.UrlPath.climb_eq_zero h, List.take_zero]
  exact List.nil_suffix

end Keys

section Requests

variable (M : PatternRouter) (alphanumeric : Char → Bool) (routes : List DeploymentRoute)
  (functionMap : List (String × Uuid)) (path method : String)

/--
What a request makes a property of the storage key that is served.
-/
def ForServedKey (P : String → Prop) : Prop :=
  ∀ resolver : RouteResolver M, RouteResolver.fromRoutes alphanumeric routes functionMap = .ok resolver →
    ∀ storageKey, (resolver.resolve path method).storageKey? = some storageKey → P storageKey

def ServesOwnFiles (deploymentId : Uuid) : Prop :=
  ForServedKey M alphanumeric routes functionMap path method (OwnFilesOnly deploymentId)

def KeysContained (deploymentId : Uuid) : Prop :=
  ForServedKey M alphanumeric routes functionMap path method (Contained deploymentId)

/--
A request is served from the files of its deployment if and only if the target with the parameters in it does
not climb out of them.
-/
theorem servesOwnFiles_iff_keysContained (deploymentId : Uuid)
    : ServesOwnFiles M alphanumeric routes functionMap path method deploymentId
      ↔ KeysContained M alphanumeric routes functionMap path method deploymentId := by
  unfold ServesOwnFiles KeysContained ForServedKey
  simp only [ownFilesOnly_iff]

end Requests

/--
A site of static files.
-/
def files : List DeploymentRoute :=
  [page "/:path*" "/$path" none 0]

/--
A path to the files of the deployment 2.
-/
def strayPath : String :=
  "/%2e%2e/../00000000-0000-0000-0000-000000000002/static/secret.html"

theorem files_serves_strayPath : ∃ resolver : RouteResolver listRouter,
    RouteResolver.fromRoutes Char.isAlphanum files [] = .ok resolver
      ∧ (resolver.resolve strayPath "GET").storageKey? = some strayPath := by
  have hserved : (match RouteResolver.fromRoutes (M := listRouter) Char.isAlphanum files [] with
      | .ok resolver => (resolver.resolve strayPath "GET").storageKey? == some strayPath
      | .error _ => false) = true := by decide +kernel
  split at hserved
  . next resolver hfrom => exact ⟨resolver, hfrom, eq_of_beq hserved⟩
  . cases hserved

/--
A path with dot segments reads the files of another deployment.
-/
theorem not_servesOwnFiles : ¬ ∀ (M : PatternRouter) alphanumeric routes functionMap path method deploymentId,
    ServesOwnFiles M alphanumeric routes functionMap path method deploymentId := by
  intro h
  obtain ⟨resolver, hfrom, hkey⟩ := files_serves_strayPath
  have hown := h listRouter Char.isAlphanum files [] strayPath "GET" 1 resolver hfrom strayPath hkey
  have hurl : objectUrl sitesBucket ((1 : Uuid).hyphenated ++ "/static/" ++ trimStartSlashes strayPath)
      ∈ (serveStatic (fun _ => none) 1 strayPath).requested := by decide +kernel
  exact absurd (hown _ _ hurl) (by decide +kernel)

end Reactor.Sites
