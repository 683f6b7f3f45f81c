import ReactorCloud.Posix.Files
import ReactorCloud.Rust.Bytes
import ReactorCloud.Rust.F64
import ReactorCloud.Rust.Result

/-!
This module contains `reactor-deploy-bundle`: the manifest, unpacking and validation. The crates for
hashes, versions and archives are parameters.
-/

namespace Reactor.DeployBundle

open Posix (FileSystem Errno)

abbrev Bytes := List UInt8

/-! ## Manifest -/

structure FileEntry where
  path : String
  sha256 : String
  deriving DecidableEq

abbrev MigrationEntry := FileEntry

abbrev StoragePolicyEntry := FileEntry

abbrev FunctionEntry := FileEntry

abbrev JobEntry := FileEntry

abbrev SiteEntry := FileEntry

structure DataManifest where
  migrations : List MigrationEntry

structure ConfigEntry where
  configPath : Option String
  configSha256 : Option String

abbrev ConnectInstanceEntry := ConfigEntry

abbrev ConnectConnectionEntry := ConfigEntry

structure ConnectManifest where
  instances : List ConnectInstanceEntry
  connections : List ConnectConnectionEntry

structure CapabilitiesManifest where
  data : Option DataManifest := none
  storage : Option (List StoragePolicyEntry) := none
  functions : Option (List FunctionEntry) := none
  jobs : Option (List JobEntry) := none
  sites : Option (List SiteEntry) := none
  connect : Option ConnectManifest := none

structure BundleManifest where
  reactorVersion : String
  capabilities : CapabilitiesManifest

inductive BundleError where
  | io (errno : Errno)
  | json (message : String)
  | missingManifest
  | invalidManifest (message : String)
  | hashMismatch (path expected actual : String)
  | fileNotFound (path : String)
  | versionMismatch (required actual : String)
  | decompression (message : String)
  deriving DecidableEq

/-! ## Unpacking -/

structure Bundle where
  manifest : BundleManifest
  root : String

def Bundle.path (bundle : Bundle) (relative : String) : String :=
  Posix.join bundle.root relative

/--
A result of the system is an error of the bundle.
-/
def io {α : Type} (result : Except Errno α) : Except BundleError α :=
  result.mapError .io

def Bundle.readFile (fs : FileSystem) (bundle : Bundle) (relative : String) : Except BundleError Bytes :=
  let path := bundle.path relative
  if fs.pathExists path then io (fs.read path) else .error (.fileNotFound relative)

/--
`zstd`, `tar` and `serde_json`
-/
structure Formats where
  decompress : Bytes → Except String Bytes
  extract : FileSystem → Bytes → String → Except Errno FileSystem
  manifest : String → Except String BundleManifest

def readToString (fs : FileSystem) (path : String) : Except Errno String := do
  let content ← fs.read path
  match String.fromUTF8? ⟨content.toArray⟩ with
  | some text => .ok text
  | none => .error .invalid

def unpack (formats : Formats) (fs : FileSystem) (data : Bytes) (dest : String)
    : Except BundleError (FileSystem × Bundle) := do
  let tarData ← (formats.decompress data).mapError .decompression
  let fs ← io (formats.extract fs tarData dest)
  let manifestPath := Posix.join dest "manifest.json"
  if !fs.pathExists manifestPath then
    throw .missingManifest
  let manifestData ← io (readToString fs manifestPath)
  let manifest ← (formats.manifest manifestData).mapError .json
  return (fs, ⟨manifest, dest⟩)

/-! ## Validation -/

/--
`semver`
-/
structure Semver where
  Version : Type
  parse : String → Except String Version
  lt : Version → Version → Bool
  text : Version → String

/--
What `Sha256` gives.
-/
abbrev Digest := { bytes : Bytes // bytes.length = 32 }

/--
`hex::encode`
-/
def hexEncode (bytes : Bytes) : String :=
  String.ofList (bytes.flatMap fun b => [Nat.digitChar (b.toNat / 16), Nat.digitChar (b.toNat % 16)])

section Validate

variable (sha256 : Bytes → Digest) (semver : Semver) (fs : FileSystem)

def checkVersion (bundle : Bundle) (serverVersion : Option String) : Except BundleError Unit :=
  match serverVersion with
  | none => .ok ()
  | some serverVer => do
    let required ← (semver.parse bundle.manifest.reactorVersion).mapError
      (fun e => .invalidManifest ("invalid version: " ++ e))
    let actual ← (semver.parse serverVer).mapError
      (fun e => .invalidManifest ("invalid server version: " ++ e))
    -- `required > actual`
    if semver.lt actual required then
      throw (.versionMismatch (semver.text required) (semver.text actual))

def verifyFileHash (bundle : Bundle) (path expectedHash : String) : Except BundleError Unit := do
  let data ← bundle.readFile fs path
  let actualHash := hexEncode (sha256 data)
  if actualHash ≠ expectedHash then
    throw (.hashMismatch path expectedHash actualHash)

/--
The arm of a function, a job or a site. The hash check is skipped if there is no hash.
-/
def verifyEntry (bundle : Bundle) (entry : FileEntry) : Except BundleError Unit :=
  if entry.sha256 ≠ "" then
    verifyFileHash sha256 fs bundle entry.path entry.sha256
  else if fs.pathExists (bundle.path entry.path) then
    .ok ()
  else
    .error (.fileNotFound entry.path)

def validate (bundle : Bundle) (serverVersion : Option String) : Except BundleError Unit := do
  checkVersion semver bundle serverVersion
  let capabilities := bundle.manifest.capabilities
  capabilities.data.forM (·.migrations.forM fun migration =>
    verifyFileHash sha256 fs bundle migration.path migration.sha256)
  capabilities.storage.forM (·.forM fun policy =>
    verifyFileHash sha256 fs bundle policy.path policy.sha256)
  capabilities.functions.forM (·.forM fun func => verifyEntry sha256 fs bundle func)
  capabilities.jobs.forM (·.forM fun job => verifyEntry sha256 fs bundle job)
  capabilities.sites.forM (·.forM fun site => verifyEntry sha256 fs bundle site)

end Validate

end Reactor.DeployBundle

/-!
This module contains what is known of the files that the manifest of a validated bundle names.
-/

namespace Reactor.DeployBundle

open Posix (FileSystem Errno)
open Rust (bind_unit_eq_ok forM_eq_ok)

/-! ## References -/

structure Reference where
  path : String
  sha256 : Option String
  deriving DecidableEq

/--
The entries whose hash is always compared.
-/
def CapabilitiesManifest.hashed (capabilities : CapabilitiesManifest) : List FileEntry :=
  (capabilities.data.elim [] (·.migrations)) ++ capabilities.storage.getD []

/--
The entries that may be directories.
-/
def CapabilitiesManifest.bundled (capabilities : CapabilitiesManifest) : List FileEntry :=
  capabilities.functions.getD [] ++ (capabilities.jobs.getD [] ++ capabilities.sites.getD [])

def ConfigEntry.reference (entry : ConfigEntry) : Option Reference :=
  entry.configPath.map fun path => ⟨path, entry.configSha256.filter (· ≠ "")⟩

def CapabilitiesManifest.configs (capabilities : CapabilitiesManifest) : List Reference :=
  (capabilities.connect.elim [] fun c => c.instances ++ c.connections).filterMap ConfigEntry.reference

def FileEntry.reference (entry : FileEntry) : Reference where
  path := entry.path
  sha256 := if entry.sha256 = "" then none else some entry.sha256

def CapabilitiesManifest.references (capabilities : CapabilitiesManifest) : List Reference :=
  (capabilities.hashed ++ capabilities.bundled).map FileEntry.reference ++ capabilities.configs

section Verified

variable (sha256 : Bytes → Digest) (semver : Semver) (fs : FileSystem)

/--
The path is a file with this hash.
-/
def Hashes (bundle : Bundle) (path hash : String) : Prop :=
  ∃ content, fs.read (bundle.path path) = .ok content ∧ hexEncode (sha256 content) = hash

structure Truthful (bundle : Bundle) (ref : Reference) : Prop where
  inside : fs.inside bundle.root (bundle.path ref.path) = true
  hash : fs.isDir (bundle.path ref.path) = true
    ∨ ∃ hash, ref.sha256 = some hash ∧ Hashes sha256 fs bundle ref.path hash

/--
A bundle that is validated is what its manifest says.
-/
def Verified (bundle : Bundle) (serverVersion : Option String) : Prop :=
  validate sha256 semver fs bundle serverVersion = .ok () →
    ∀ ref ∈ bundle.manifest.capabilities.references, Truthful sha256 fs bundle ref

/--
The server is as new as the bundle asks for.
-/
def Compatible (bundle : Bundle) (serverVersion : Option String) : Prop :=
  ∀ text, serverVersion = some text → ∃ required actual,
    semver.parse bundle.manifest.reactorVersion = .ok required ∧ semver.parse text = .ok actual
      ∧ semver.lt actual required = false

/--
The version or one of the files that are looked at is wrong.
-/
inductive Refused (bundle : Bundle) (serverVersion : Option String) : Prop where
  | version (h : ¬ Compatible semver bundle serverVersion)
  | hashed (e : FileEntry) (he : e ∈ bundle.manifest.capabilities.hashed)
    (h : ¬ Hashes sha256 fs bundle e.path e.sha256)
  | bundled (e : FileEntry) (he : e ∈ bundle.manifest.capabilities.bundled) (hne : e.sha256 ≠ "")
    (h : ¬ Hashes sha256 fs bundle e.path e.sha256)
  | missing (e : FileEntry) (he : e ∈ bundle.manifest.capabilities.bundled) (heq : e.sha256 = "")
    (h : fs.pathExists (bundle.path e.path) = false)

/--
The paths stay in the bundle. What is not compared is a directory or has its hash nonetheless.
-/
structure Contained (bundle : Bundle) : Prop where
  inside : ∀ ref ∈ bundle.manifest.capabilities.references,
    fs.inside bundle.root (bundle.path ref.path) = true
  bundled : ∀ e ∈ bundle.manifest.capabilities.bundled, e.sha256 = "" →
    fs.isDir (bundle.path e.path) = true
  configs : ∀ ref ∈ bundle.manifest.capabilities.configs, fs.isDir (bundle.path ref.path) = true
    ∨ ∃ hash, ref.sha256 = some hash ∧ Hashes sha256 fs bundle ref.path hash

end Verified

/-! ## What is validated -/

section Lemmas

variable {sha256 : Bytes → Digest} {semver : Semver} {fs : FileSystem} {bundle : Bundle}

theorem hexEncode_ne_empty (digest : Digest) : hexEncode digest ≠ "" := by
  obtain ⟨bytes, hlength⟩ := digest
  cases bytes with
  | nil => cases hlength
  | cons b bytes =>
    intro h
    have := congrArg String.toList h
    simp [hexEncode] at this

theorem checkVersion_eq_ok {serverVersion : Option String}
    : checkVersion semver bundle serverVersion = .ok () ↔ Compatible semver bundle serverVersion := by
  cases serverVersion with
  | none => simp [checkVersion, Compatible]
  | some text =>
    simp only [checkVersion, Compatible, Option.some.injEq, forall_eq', Rust.bind_eq_ok,
      Rust.mapError_eq_ok]
    apply exists_congr
    intro required
    rw [← exists_and_left]
    apply exists_congr
    intro actual
    cases semver.lt actual required with
    | false => simp [pure, Except.pure]
    | true => simp [throw, throwThe, MonadExceptOf.throw]

theorem readFile_eq_ok {path : String} {content : Bytes}
    : bundle.readFile fs path = .ok content ↔ fs.read (bundle.path path) = .ok content := by
  unfold Bundle.readFile
  dsimp only
  split
  . exact Rust.mapError_eq_ok
  . next hexists =>
    have : (fs.resolve (bundle.path path)).isOk = false := by simpa [FileSystem.pathExists] using hexists
    cases hresolve : fs.resolve (bundle.path path) with
    | ok l => rw [hresolve] at this; cases this
    | error e => simp [FileSystem.read, hresolve, bind, Except.bind]

theorem verifyFileHash_eq_ok {path hash : String}
    : verifyFileHash sha256 fs bundle path hash = .ok () ↔ Hashes sha256 fs bundle path hash := by
  simp only [verifyFileHash, Hashes, Rust.bind_eq_ok, readFile_eq_ok]
  apply exists_congr
  intro content
  split
  . next hne => simp [hne, throw, throwThe, MonadExceptOf.throw]
  . next heq => simp [not_not.mp heq, pure, Except.pure]

theorem verifyEntry_eq_ok {entry : FileEntry}
    : verifyEntry sha256 fs bundle entry = .ok ()
        ↔
      (entry.sha256 ≠ "" → Hashes sha256 fs bundle entry.path entry.sha256)
        ∧ (entry.sha256 = "" → fs.pathExists (bundle.path entry.path) = true) := by
  unfold verifyEntry
  split
  . next hne => simp [hne, verifyFileHash_eq_ok]
  . next heq =>
    have heq := not_not.mp heq
    split
    . next hexists => simp [heq, hexists]
    . next hmissing => simp [heq, hmissing]

theorem optionForM_eq_ok {α : Type} {f : α → Except BundleError Unit} {as : Option (List α)}
    : as.forM (·.forM f) = .ok () ↔ ∀ a ∈ as.getD [], f a = .ok () := by
  cases as with
  | none => simp [pure, Except.pure]
  | some as => exact forM_eq_ok

theorem validate_eq_ok {serverVersion : Option String}
    : validate sha256 semver fs bundle serverVersion = .ok ()
        ↔
      Compatible semver bundle serverVersion
        ∧ (∀ e ∈ bundle.manifest.capabilities.hashed, Hashes sha256 fs bundle e.path e.sha256)
        ∧ ∀ e ∈ bundle.manifest.capabilities.bundled, verifyEntry sha256 fs bundle e = .ok () := by
  have hdata : ∀ data : Option DataManifest, data.forM (·.migrations.forM fun migration =>
      verifyFileHash sha256 fs bundle migration.path migration.sha256) = .ok ()
        ↔ ∀ e ∈ data.elim [] (·.migrations), Hashes sha256 fs bundle e.path e.sha256 := by
    intro data
    simp only [← verifyFileHash_eq_ok]
    cases data with
    | none => simp [pure, Except.pure]
    | some data => exact forM_eq_ok
  simp only [validate, bind_unit_eq_ok, checkVersion_eq_ok, hdata, optionForM_eq_ok,
    verifyFileHash_eq_ok, CapabilitiesManifest.hashed, CapabilitiesManifest.bundled,
    List.forall_mem_append, and_assoc]

theorem validate_eq_ok_iff_not_refused {serverVersion : Option String}
    : validate sha256 semver fs bundle serverVersion = .ok ()
        ↔
      ¬ Refused sha256 semver fs bundle serverVersion := by
  rw [validate_eq_ok]
  simp only [verifyEntry_eq_ok]
  constructor
  . rintro ⟨hversion, hhashed, hbundled⟩ hrefused
    cases hrefused with
    | version h => exact h hversion
    | hashed e he h => exact h (hhashed e he)
    | bundled e he hne h => exact h ((hbundled e he).1 hne)
    | missing e he heq h =>
      rw [(hbundled e he).2 heq] at h
      cases h
  . intro h
    refine ⟨?_, ?_, ?_⟩
    . exact not_not.mp fun hversion => h (.version hversion)
    . intro e he
      exact not_not.mp fun hnot => h (.hashed e he hnot)
    . intro e he
      refine ⟨fun hne => not_not.mp fun hnot => h (.bundled e he hne hnot), fun heq => ?_⟩
      rw [← Bool.not_eq_false]
      exact fun hnot => h (.missing e he heq hnot)

/--
An entry whose hash has been compared has a hash.
-/
theorem reference_of_hashes {e : FileEntry} (h : Hashes sha256 fs bundle e.path e.sha256)
    : ∃ hash, e.reference.sha256 = some hash ∧ Hashes sha256 fs bundle e.path hash := by
  have hne : e.sha256 ≠ "" := by
    obtain ⟨content, _, heq⟩ := h
    rw [← heq]
    exact hexEncode_ne_empty _
  exact ⟨e.sha256, by rw [FileEntry.reference, if_neg hne], h⟩

/--
The paths stay in the bundle if they are relative and without `..`, and nothing in it is a link.
-/
theorem Contained.of_plain (hroot : bundle.root ≠ "" ∧ bundle.root.toList.getLast? ≠ some '/')
    (hlinks : ∀ b l target, fs.resolve bundle.root = .ok b → b <+: l → fs.node l ≠ some (.link target))
    (hpaths : ∀ ref ∈ bundle.manifest.capabilities.references,
      Posix.isAbsolute ref.path = false ∧ ".." ∉ Posix.components ref.path
        ∧ fs.pathExists (bundle.path ref.path) = true)
    (hbundled : ∀ e ∈ bundle.manifest.capabilities.bundled, e.sha256 = "" →
      fs.isDir (bundle.path e.path) = true)
    (hconfigs : bundle.manifest.capabilities.configs = []) : Contained sha256 fs bundle where
  inside := by
    intro ref href
    obtain ⟨hrelative, hnames, hexists⟩ := hpaths ref href
    exact FileSystem.inside_join hroot hlinks hrelative hnames hexists
  bundled := hbundled
  configs := by
    intro ref href
    rw [hconfigs] at href
    cases href

end Lemmas

/--
A temporary directory with the directory of a function, and a file of the system.
-/
def unpacked : FileSystem :=
  .ofEntries [(["tmp"], .dir), (["tmp", "b"], .dir), (["tmp", "b", "hello"], .dir), (["etc"], .dir),
    (["etc", "passwd"], .file [114])] [] (by decide)

def noHash : Bytes → Digest :=
  fun _ => ⟨List.replicate 32 0, rfl⟩

/--
Versions without a pre-release.
-/
def releases : Semver where
  Version := Nat ×ₗ Nat ×ₗ Nat
  parse text :=
    match (text.toList.splitOn '.').map Rust.parseNat with
    | [some major, some minor, some patch] => .ok (toLex (major, toLex (minor, patch)))
    | _ => .error "unexpected end of input"
  lt v w := v < w
  text v := Nat.repr v.1 ++ "." ++ Nat.repr v.2.1 ++ "." ++ Nat.repr v.2.2

def Bundle.withFunction (path : String) : Bundle where
  manifest := ⟨"0.1.0", { functions := some [⟨path, ""⟩] }⟩
  root := "/tmp/b"

example : Contained noHash unpacked (.withFunction "hello") where
  inside := by decide
  bundled := by decide
  configs := by simp [CapabilitiesManifest.configs, Bundle.withFunction]

end Reactor.DeployBundle
