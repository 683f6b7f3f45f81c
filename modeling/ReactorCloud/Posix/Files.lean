import Mathlib.Data.List.Basic

/-!
This module contains directories, files and symbolic links, and how a path is followed to one of them.
-/

namespace Posix

inductive Node where
  | file (content : List UInt8)
  | dir
  | link (target : String)
  deriving DecidableEq

/--
The names on the way down from the root.
-/
abbrev Location := List String

inductive Errno where
  | noEntry
  | notDir
  | isDir
  | loop
  | nameTooLong
  | invalid
  deriving Repr, DecidableEq

/--
What one process sees. Everything is in a directory.
-/
structure FileSystem where
  node : Location → Option Node
  cwd : Location
  root : node [] = some .dir
  parent : ∀ l name, node (l ++ [name]) ≠ none → node l = some .dir

def pathMax : Nat := 4096

def linkMax : Nat := 40

def isAbsolute (path : String) : Bool :=
  path.toList.head? == some '/'

/--
The names of a path. A slash at its end stands for the directory itself.
-/
def components (path : String) : List String :=
  ((path.toList.splitOn '/').filter (· ≠ [])).map String.ofList
    ++ if path.toList.getLast? = some '/' then ["."] else []

/--
`std::path::Path::join`: an absolute path takes the place of the base.
-/
def join (base path : String) : String :=
  if isAbsolute path then path
  else if base = "" ∨ base.toList.getLast? = some '/' then base ++ path
  else base ++ "/" ++ path

namespace FileSystem

def start (current : Location) (path : String) : Location :=
  if isAbsolute path then [] else current

/--
The names are followed one after the other, and `follow` continues after a link.
-/
def walkWith (fs : FileSystem) (follow : Location → List String → Except Errno Location)
    : Location → List String → Except Errno Location
  | current, [] => .ok current
  | current, name :: names =>
    if fs.node current ≠ some .dir then
      .error .notDir
    else if name = "." then
      fs.walkWith follow current names
    else if name = ".." then
      fs.walkWith follow current.dropLast names
    else
      match fs.node (current ++ [name]) with
      | none => .error .noEntry
      | some (.link target) =>
        if target = "" then .error .noEntry
        else follow (start current target) (components target ++ names)
      | some _ => fs.walkWith follow (current ++ [name]) names

def walk (fs : FileSystem) : Nat → Location → List String → Except Errno Location
  | 0 => fs.walkWith (fun _ _ => .error .loop)
  | links + 1 => fs.walkWith (fs.walk links)

/--
Where a path leads, through all links.
-/
def resolve (fs : FileSystem) (path : String) : Except Errno Location :=
  if path = "" then .error .noEntry
  else if '\x00' ∈ path.toList then .error .invalid
  else if pathMax ≤ path.utf8ByteSize then .error .nameTooLong
  else fs.walk linkMax (start fs.cwd path) (components path)

/--
`std::path::Path::exists`
-/
def pathExists (fs : FileSystem) (path : String) : Bool :=
  (fs.resolve path).isOk

/--
`std::path::Path::is_dir`
-/
def isDir (fs : FileSystem) (path : String) : Bool :=
  match fs.resolve path with
  | .ok l => fs.node l == some .dir
  | .error _ => false

/--
`std::fs::read`
-/
def read (fs : FileSystem) (path : String) : Except Errno (List UInt8) := do
  let l ← fs.resolve path
  match fs.node l with
  | some (.file content) => .ok content
  | some .dir => .error .isDir
  | _ => .error .noEntry

/--
The path leads to the base or to something below it.
-/
def inside (fs : FileSystem) (base path : String) : Bool :=
  match fs.resolve base, fs.resolve path with
  | .ok b, .ok l => b.isPrefixOf l
  | _, _ => false

theorem inside_iff {fs : FileSystem} {base path : String}
    : fs.inside base path = true
        ↔
      ∃ b l, fs.resolve base = .ok b ∧ fs.resolve path = .ok l ∧ b <+: l := by
  unfold inside
  split
  . next b l hb hl => simp [hb, hl]
  . next h =>
    simp only [Bool.false_eq_true, false_iff, not_exists]
    rintro b l ⟨hb, hl, _⟩
    exact h b l hb hl

/--
The file system of a list of files and directories, each of them in a directory of the list.
-/
def ofEntries (entries : List (Location × Node)) (cwd : Location)
    (h : ∀ e ∈ entries, e.1.dropLast = [] ∨ entries.lookup e.1.dropLast = some .dir) : FileSystem where
  node l := if l = [] then some .dir else entries.lookup l
  cwd
  root := rfl
  parent := by
    intro l name hsome
    rw [if_neg (by simp)] at hsome
    obtain ⟨n, hn⟩ := Option.ne_none_iff_exists'.mp hsome
    obtain ⟨_, _, heq, _⟩ := List.lookup_eq_some_iff.mp hn
    have := h (l ++ [name], n) (by simp [heq])
    rw [List.dropLast_concat] at this
    split
    . rfl
    . next hl => exact this.resolve_left hl

/-! ## Paths that stay below -/

section Below

variable {fs : FileSystem} {follow : Location → List String → Except Errno Location}

theorem walkWith_append {names rest : List String} {current l : Location} {Reaches : Location → Prop}
    (hfollow : ∀ current names, follow current (names ++ rest) = .ok l →
      ∃ middle, follow current names = .ok middle ∧ Reaches middle)
    (hself : ∀ middle, fs.walkWith follow middle rest = .ok l → Reaches middle)
    (h : fs.walkWith follow current (names ++ rest) = .ok l)
    : ∃ middle, fs.walkWith follow current names = .ok middle ∧ Reaches middle := by
  induction names generalizing current with
  | nil => exact ⟨current, rfl, hself current h⟩
  | cons name names ih =>
    rw [List.cons_append, walkWith] at h
    rw [walkWith]
    split at h
    . cases h
    next hdir =>
    rw [if_neg hdir]
    split at h
    . next hdot =>
      rw [if_pos hdot]
      exact ih h
    next hdot =>
    rw [if_neg hdot]
    split at h
    . next hdots =>
      rw [if_pos hdots]
      exact ih h
    next hdots =>
    rw [if_neg hdots]
    split at h
    . cases h
    . next target hnode =>
      split at h
      . cases h
      . next htarget =>
        rw [if_neg htarget]
        apply hfollow
        rw [List.append_assoc]
        exact h
    . exact ih h

/--
The first names are followed on their own, the others after them with the links that are left.
-/
theorem walk_append {links : Nat} {names rest : List String} {current l : Location}
    (h : fs.walk links current (names ++ rest) = .ok l)
    : ∃ middle, fs.walk links current names = .ok middle ∧ ∃ k, fs.walk k middle rest = .ok l := by
  induction links generalizing names current with
  | zero => exact walkWith_append (fun _ _ h => by cases h) (fun _ h => ⟨0, h⟩) h
  | succ links ih => exact walkWith_append (fun _ _ => ih) (fun _ h => ⟨links + 1, h⟩) h

/--
Without links and `..` there is no way out.
-/
theorem walkWith_below {base : Location} (hlinks : ∀ l target, base <+: l → fs.node l ≠ some (.link target))
    {names : List String} (hnames : ".." ∉ names) {current l : Location} (hcurrent : base <+: current)
    (h : fs.walkWith follow current names = .ok l) : base <+: l := by
  induction names generalizing current with
  | nil =>
    cases h
    exact hcurrent
  | cons name names ih =>
    rw [List.mem_cons, not_or] at hnames
    have hbelow : base <+: current ++ [name] := hcurrent.trans (List.prefix_append _ _)
    rw [walkWith] at h
    split at h
    . cases h
    split at h
    . exact ih hnames.2 hcurrent h
    rw [if_neg (Ne.symm hnames.1)] at h
    split at h
    . cases h
    . next target hnode => exact absurd hnode (hlinks _ _ hbelow)
    . exact ih hnames.2 hbelow h

end Below

section Join

variable {fs : FileSystem} {base path : String}

theorem join_relative (hbase : base ≠ "" ∧ base.toList.getLast? ≠ some '/')
    (hrelative : isAbsolute path = false) : join base path = base ++ "/" ++ path := by
  rw [join, if_neg (by simp [hrelative]), if_neg (by simp [hbase])]

theorem components_join (hbase : base.toList.getLast? ≠ some '/')
    : components (base ++ "/" ++ path)
        =
      components base ++ if path = "" then ["."] else components path := by
  have hsplit : (base ++ "/" ++ path).toList.splitOn '/'
      = base.toList.splitOn '/' ++ path.toList.splitOn '/' := by
    rw [String.toList_append, String.toList_append, List.append_assoc]
    exact List.splitOnP_append_cons _ _ (by decide)
  rw [components, hsplit]
  simp only [components, if_neg hbase, List.filter_append, List.map_append, List.append_nil,
    List.append_assoc]
  congr 1
  by_cases hpath : path = ""
  . subst hpath
    simp
  . have hlist : path.toList ≠ [] := by simpa using hpath
    rw [if_neg hpath, String.toList_append, List.getLast?_append_of_ne_nil _ hlist]

theorem isAbsolute_join (hbase : base ≠ "") : isAbsolute (base ++ "/" ++ path) = isAbsolute base := by
  have hlist : base.toList ≠ [] := by simpa using hbase
  cases hcs : base.toList with
  | nil => exact absurd hcs hlist
  | cons c cs => simp [isAbsolute, hcs]

/--
A relative path without `..` leads to something in the base, unless there are links in it.
-/
theorem inside_join (hbase : base ≠ "" ∧ base.toList.getLast? ≠ some '/')
    (hlinks : ∀ b l target, fs.resolve base = .ok b → b <+: l → fs.node l ≠ some (.link target))
    (hrelative : isAbsolute path = false) (hnames : ".." ∉ components path)
    (hexists : fs.pathExists (join base path) = true) : fs.inside base (join base path) = true := by
  rw [join_relative hbase hrelative] at hexists ⊢
  obtain ⟨l, hl⟩ : ∃ l, fs.resolve (base ++ "/" ++ path) = .ok l := by
    rw [pathExists] at hexists
    cases hres : fs.resolve (base ++ "/" ++ path) with
    | ok l => exact ⟨l, rfl⟩
    | error e => rw [hres] at hexists; cases hexists
  have hwalk := hl
  rw [resolve] at hwalk
  split at hwalk
  . cases hwalk
  split at hwalk
  . cases hwalk
  next hnul =>
  split at hwalk
  . cases hwalk
  next hsize =>
  rw [start, isAbsolute_join hbase.1, components_join hbase.2] at hwalk
  obtain ⟨b, hb, k, hrest⟩ := walk_append hwalk
  have hresolve : fs.resolve base = .ok b := by
    rw [resolve, if_neg hbase.1, if_neg, if_neg]
    . exact hb
    . rw [String.utf8ByteSize_append, String.utf8ByteSize_append] at hsize
      omega
    . simp only [String.toList_append, List.mem_append, not_or] at hnul
      exact hnul.1.1
  refine inside_iff.mpr ⟨b, l, hresolve, hl, ?_⟩
  have hnames : ".." ∉ (if path = "" then ["."] else components path) := by
    split
    . decide
    . exact hnames
  cases k with
  | zero => exact walkWith_below (fun l t => hlinks b l t hresolve) hnames (List.prefix_refl b) hrest
  | succ k => exact walkWith_below (fun l t => hlinks b l t hresolve) hnames (List.prefix_refl b) hrest

end Join

end FileSystem

end Posix
