import Workflows.Foundations.FileSystem

/-!
# The template repository that the create command makes

`create` makes a directory and copies the boilerplate into it, one directory after another. What
cannot be copied is said and left out, and the command goes on with the rest. A symbolic link whose
target cannot be read and what cannot be looked at are left out without a word.
-/

namespace Workflows.Cli.CreateRepository

open FileSystem FileTree

section Model

/-- What is asked of the system, which may fail at any of it, and then does so each time. -/
inductive Call where
  | createDir (path : FilePath)
  | readDir (path : FilePath)
  | readEntry (path : FilePath)
  | metadata (path : FilePath)
  | readLink (path : FilePath)
  | symlink (path : FilePath)
  | copy (source target : FilePath)
  deriving DecidableEq

/-- A copy that fails may leave a part of the file. -/
structure Failure where
  error : IoError
  left : Option (List UInt8)
  deriving DecidableEq

structure CreateArgs where
  name : String
  manifest : Bool
  helm : Bool
  workflowsHome : String

/-- The outcome of a call and what is said on the error output. -/
abbrev Said := FileTree × List String

variable (faults : Call → Option Failure) (display : FilePath → String)
  (resolve : String → FilePath)

def createDir (fs : FileTree) (path : FilePath) : FileTree × Option IoError :=
  match faults (.createDir path) with
  | some failure => (fs, some failure.error)
  | none => fs.create path .directory

def isSymlink (fs : FileTree) (path : FilePath) : Bool :=
  (faults (.metadata path)).isNone && (fs.entry path).any fun
    | .symlink _ => true
    | _ => false

def isDir (fs : FileTree) (path : FilePath) : Bool :=
  (faults (.metadata path)).isNone && fs.entry path = some .directory

def isFile (fs : FileTree) (path : FilePath) : Bool :=
  (faults (.metadata path)).isNone && (fs.entry path).any fun
    | .file _ => true
    | _ => false

/-- An error is none where the directory stands. -/
def unlessDir (fs : FileTree) (path : FilePath) (e : IoError) : FileTree × Option IoError :=
  (fs, if isDir faults fs path then none else some e)

/-- The names are those of the path from its last one. -/
def createDirAllFrom (fs : FileTree) : List String → FileTree × Option IoError
  | [] => (fs, none)
  | name :: dir =>
    let path := (name :: dir).reverse
    match createDir faults fs path with
    | (fs, none) => (fs, none)
    | (fs, some e) =>
      if e = .notFound then
        match createDirAllFrom fs dir with
        | (fs, some e) => (fs, some e)
        | (fs, none) =>
          match createDir faults fs path with
          | (fs, none) => (fs, none)
          | (fs, some e) => unlessDir faults fs path e
      else unlessDir faults fs path e

def createDirAll (fs : FileTree) (path : FilePath) : FileTree × Option IoError :=
  createDirAllFrom faults fs path.reverse

def readDir (fs : FileTree) (path : FilePath) : Option (List String) :=
  if (faults (.readDir path)).isNone && fs.entry path = some .directory then
    some (fs.names path)
  else none

def readLink (fs : FileTree) (path : FilePath) : Option String :=
  if (faults (.readLink path)).isNone then
    match fs.entry path with
    | some (.symlink target) => some target
    | _ => none
  else none

def symlink (fs : FileTree) (target : String) (path : FilePath) : FileTree × Option IoError :=
  match faults (.symlink path) with
  | some failure => (fs, some failure.error)
  | none => fs.create path (.symlink target)

def copy (fs : FileTree) (source target : FilePath) : FileTree × Option IoError :=
  match faults (.copy source target) with
  | some failure =>
    match failure.left with
    | none => (fs, some failure.error)
    | some content => ((fs.write target content).1, some failure.error)
  | none =>
    match fs.entry source with
    | some (.file content) => fs.write target content
    | some _ =>
      (fs, some (.other
        "the source path is neither a regular file nor a symlink to a regular file"))
    | none => (fs, some (fs.missing source))

def copyEntry (descend : FilePath → FilePath → FileTree → Option Said)
    (src dest : FilePath) (fs : FileTree) : Option Said :=
  if isSymlink faults fs src then
    match readLink faults fs src with
    | none => some (fs, [])
    | some target =>
      match symlink faults fs target dest with
      | (fs, none) => some (fs, [])
      | (fs, some e) =>
        some (fs, ["Failed to create symlink " ++ display dest ++ ": " ++ e.text])
  else if isDir faults fs src then
    match createDirAll faults fs dest with
    | (fs, some e) =>
      some (fs, ["Failed to create directory " ++ display dest ++ ": " ++ e.text])
    | (fs, none) => descend src dest fs
  else if isFile faults fs src then
    match copy faults fs src dest with
    | (fs, none) => some (fs, [])
    | (fs, some e) => some (fs, ["Failed to copy " ++ display src ++ ": " ++ e.text])
  else some (fs, [])

def copyEntries (descend : FilePath → FilePath → FileTree → Option Said)
    (src dest : FilePath) : List String → FileTree → Option Said
  | [], fs => some (fs, [])
  | name :: names, fs => do
    let (fs, said) ← copyEntry faults display descend (src ++ [name]) (dest ++ [name]) fs
    let (fs, rest) ← copyEntries descend src dest names fs
    return (fs, said ++ rest)

/-- `none` where the copy has not ended within the fuel. -/
def copyDirectory : Nat → FilePath → FilePath → FileTree → Option Said
  | 0, _, _, _ => none
  | fuel + 1, src, dest, fs =>
    match createDirAll faults fs dest with
    | (fs, some e) =>
      some (fs, ["Failed to create destination directory " ++ display dest ++ ": " ++ e.text])
    | (fs, none) =>
      match readDir faults fs src with
      | none => some (fs, ["Failed to read source folder: " ++ display src])
      | some names =>
        copyEntries faults display (copyDirectory fuel) src dest
          (names.filter fun name => (faults (.readEntry (src ++ [name]))).isNone) fs

def conventionalQuestion : String :=
  "Would you like to store conventional WorkflowTemplate manifests? (y/n)"

def helmQuestion : String := "Would you like to store helm-based WorkflowTemplates? (y/n)"

/-- A folder is copied where the flag asks for it or the answer does. -/
def copyWanted (fuel : Nat) (flag : Bool) (promptFn : String → Bool) (question : String)
    (src dest : FilePath) (fs : FileTree) : Option Said :=
  if !flag then
    if promptFn question then copyDirectory faults display fuel src dest fs else some (fs, [])
  else copyDirectory faults display fuel src dest fs

def boilerplate (args : CreateArgs) (folder : String) : FilePath :=
  resolve args.workflowsHome ++ ["template-boilerplate", folder]

def generateTemplateRepo (fuel : Nat) (args : CreateArgs) (promptFn : String → Bool)
    (fs : FileTree) : Option (Said × Except String Unit) :=
  let rootPath := resolve args.name
  match createDir faults fs rootPath with
  | (fs, some e) =>
    some ((fs, []), .error ("Failed to create directory " ++ args.name ++ ": " ++ e.text))
  | (fs, none) => do
    let (fs, said) ← copyWanted faults display fuel args.manifest promptFn conventionalQuestion
      (boilerplate resolve args "conventional-templates")
      (rootPath ++ ["conventional-templates"]) fs
    let (fs, rest) ← copyWanted faults display fuel args.helm promptFn helmQuestion
      (boilerplate resolve args "helm-based-templates") (rootPath ++ ["helm-based-templates"]) fs
    return ((fs, said ++ rest), .ok ())

/-- The exit code with what is printed last. -/
def create (fuel : Nat) (args : CreateArgs) (promptFn : String → Bool) (fs : FileTree) :
    Option (Said × Nat × String) :=
  (generateTemplateRepo faults display resolve fuel args promptFn fs).map fun
    | (said, .ok ()) => (said, 0, "Template Repo Created Successfully")
    | (said, .error e) => (said, 1, "Failed to create directory " ++ args.name ++ ": " ++ e)

end Model

section Copied

variable (faults : Call → Option Failure) (fs : FileTree)

/-- What becomes of an entry. -/
def copiedAt (src dest : FilePath) : Option Entry :=
  if (faults (.metadata src)).isSome then none
  else
    match fs.entry src with
    | some .directory => if (faults (.createDir dest)).isSome then none else some .directory
    | some (.symlink target) =>
      if (faults (.readLink src)).isSome || (faults (.symlink dest)).isSome then none
      else some (.symlink target)
    | some (.file content) =>
      match faults (.copy src dest) with
      | none => some (.file content)
      | some failure => failure.left.map .file
    | _ => none

/-- The copy goes into a directory that it can look at, make and list. -/
def opened (src dest : FilePath) : Bool :=
  (faults (.metadata src)).isNone && fs.entry src = some .directory &&
    (faults (.createDir dest)).isNone && (faults (.metadata dest)).isNone &&
    (faults (.readDir src)).isNone

/-- What is at and below a path once the entry of another path is copied to it. -/
def copiedEntry (src dest : FilePath) : FilePath → Option Entry
  | [] => copiedAt faults fs src dest
  | name :: p =>
    if opened faults fs src dest && (faults (.readEntry (src ++ [name]))).isNone then
      copiedEntry (src ++ [name]) (dest ++ [name]) p
    else none

def copiedFolder (src dest : FilePath) : FilePath → Option Entry
  | [] => if (faults (.createDir dest)).isSome then none else some .directory
  | name :: p =>
    if (faults (.createDir dest)).isNone && (faults (.readDir src)).isNone &&
      (faults (.readEntry (src ++ [name]))).isNone then
      copiedEntry faults fs (src ++ [name]) (dest ++ [name]) p
    else none

variable (resolve : String → FilePath) (args : CreateArgs) (promptFn : String → Bool)

/-- The folders that a flag or an answer asks for. -/
def wanted (folder : String) : Bool :=
  folder = "conventional-templates" && (args.manifest || promptFn conventionalQuestion) ||
    folder = "helm-based-templates" && (args.helm || promptFn helmQuestion)

/-- What is at and below the new repository. -/
def generated : FilePath → Option Entry
  | [] => some .directory
  | folder :: p =>
    if wanted args promptFn folder then
      copiedFolder faults fs (boilerplate resolve args folder) (resolve args.name ++ [folder]) p
    else none

end Copied

section Calls

variable {faults : Call → Option Failure} {fs : FileTree} {path dir : FilePath} {name : String}

theorem createDir_fails (fs : FileTree)
    (h : faults (.createDir (dir ++ [name])) ≠ none ∨
      ¬ (fs.entry dir = some .directory ∧ fs.entry (dir ++ [name]) = none)) :
    ∃ error, createDir faults fs (dir ++ [name]) = (fs, some error) := by
  unfold createDir
  cases hfault : faults (.createDir (dir ++ [name])) with
  | some failure => exact ⟨failure.error, rfl⟩
  | none => exact create_fails (h.resolve_left fun hne => hne hfault)

theorem createDir_of_free (hfault : faults (.createDir (dir ++ [name])) = none)
    (hdir : fs.entry dir = some .directory) (hfree : fs.entry (dir ++ [name]) = none) :
    createDir faults fs (dir ++ [name]) =
      (fs.add dir name .directory hdir (by simp [hfree]), none) := by
  rw [createDir, hfault]
  exact create_of_free hdir hfree

theorem createDir_existing (faults : Call → Option Failure) (h : fs.entry path = some .directory) :
    ∃ error, createDir faults fs path = (fs, some error) ∧
      (faults (.createDir path) = none → error = .alreadyExists) := by
  unfold createDir
  cases hfault : faults (.createDir path) with
  | some failure => exact ⟨failure.error, rfl, nofun⟩
  | none => exact ⟨.alreadyExists, create_existing h, fun _ => rfl⟩

theorem isDir_of_missing (h : fs.entry path = none) : isDir faults fs path = false := by
  simp [isDir, h]

theorem isDir_existing (h : fs.entry path = some .directory) :
    isDir faults fs path = (faults (.metadata path)).isNone := by
  simp [isDir, h]

theorem createDirAll_concat : createDirAll faults fs (dir ++ [name]) =
    createDirAllFrom faults fs (name :: dir.reverse) := by
  rw [createDirAll, List.reverse_append, List.reverse_singleton, List.singleton_append]

/-- What a refused directory comes to where nothing is made on the way to it. -/
theorem createDirAllFrom_of_refused {rev : List String} {error : IoError} {above : Option IoError}
    (herror : createDir faults fs (name :: rev).reverse = (fs, some error))
    (habove : createDirAllFrom faults fs rev = (fs, above)) :
    createDirAllFrom faults fs (name :: rev) =
      (fs, (if error = .notFound then above else none).or
        (if isDir faults fs (name :: rev).reverse then none else some error)) := by
  simp only [createDirAllFrom, herror, habove, unlessDir]
  by_cases hnotFound : error = .notFound
  · rw [if_pos hnotFound, if_pos hnotFound]
    cases above with
    | none => simp only [herror, Option.none_or]
    | some e => simp only [Option.some_or]
  · rw [if_neg hnotFound, if_neg hnotFound, Option.none_or]

/-- Where the directory stands already, nothing is made on the way to it. -/
theorem createDirAllFrom_existing {rev : List String}
    (h : fs.entry rev.reverse = some .directory) :
    ∃ error, createDirAllFrom faults fs rev = (fs, error) := by
  induction rev with
  | nil => exact ⟨none, rfl⟩
  | cons name rev ih =>
    have hparent : fs.entry rev.reverse = some .directory := by
      rw [List.reverse_cons] at h
      exact fs.parent _ name (Option.isSome_of_eq_some h)
    obtain ⟨above, habove⟩ := ih hparent
    obtain ⟨error, herror, -⟩ := createDir_existing faults h
    exact ⟨_, createDirAllFrom_of_refused herror habove⟩

theorem exists_createDirAllFrom (faults : Call → Option Failure)
    (hdir : fs.entry dir = some .directory) :
    ∃ above, createDirAllFrom faults fs dir.reverse = (fs, above) := by
  apply createDirAllFrom_existing
  rwa [List.reverse_reverse]

theorem reverse_names : (name :: dir.reverse).reverse = dir ++ [name] := by
  rw [List.reverse_cons, List.reverse_reverse]

theorem createDirAll_existing (h : fs.entry (dir ++ [name]) = some .directory)
    (hfault : faults (.createDir (dir ++ [name])) = none) :
    createDirAll faults fs (dir ++ [name]) =
      (fs, if (faults (.metadata (dir ++ [name]))).isNone then none else some .alreadyExists) := by
  have hdir := fs.parent dir name (Option.isSome_of_eq_some h)
  obtain ⟨error, herror, hexists⟩ := createDir_existing faults h
  obtain rfl := hexists hfault
  obtain ⟨above, habove⟩ := exists_createDirAllFrom faults hdir
  rw [createDirAll_concat, createDirAllFrom_of_refused (by rwa [reverse_names]) habove,
    reverse_names,
    isDir_existing h, if_neg (by simp), Option.none_or]

theorem createDirAll_of_free (hfault : faults (.createDir (dir ++ [name])) = none)
    (hdir : fs.entry dir = some .directory) (hfree : fs.entry (dir ++ [name]) = none) :
    createDirAll faults fs (dir ++ [name]) =
      (fs.add dir name .directory hdir (by simp [hfree]), none) := by
  simp only [createDirAll_concat, createDirAllFrom, reverse_names,
    createDir_of_free hfault hdir hfree]

/-- A directory that the system refuses to make is not there afterwards. -/
theorem createDirAll_fails (hfault : faults (.createDir (dir ++ [name])) ≠ none)
    (hdir : fs.entry dir = some .directory) (hfree : fs.entry (dir ++ [name]) = none) :
    ∃ error, createDirAll faults fs (dir ++ [name]) = (fs, some error) := by
  obtain ⟨error, herror⟩ := createDir_fails fs (.inl hfault)
  obtain ⟨above, habove⟩ := exists_createDirAllFrom faults hdir
  rw [createDirAll_concat, createDirAllFrom_of_refused (by rwa [reverse_names]) habove,
    reverse_names,
    isDir_of_missing hfree, if_neg Bool.false_ne_true]
  cases (if error = .notFound then above else none) with
  | none => exact ⟨error, rfl⟩
  | some e => exact ⟨e, rfl⟩

end Calls

section Copies

variable (faults : Call → Option Failure) (display : FilePath → String)

/-- Nothing at or below a path is left out without a word. -/
def Plain (fs : FileTree) (src : FilePath) : Prop :=
  ∀ q, fs.entry (src ++ q) ≠ some .special ∧ faults (.metadata (src ++ q)) = none ∧
    faults (.readEntry (src ++ q)) = none ∧ faults (.readLink (src ++ q)) = none

/-- What a copy has done: what is below the destination, and whether a word was said. -/
structure Copies (fs : FileTree) (src dest : FilePath) (spec : FilePath → Option Entry)
    (said : Said) : Prop where
  entry_eq : said.1.entry = graft fs.entry dest spec
  quiet : said.2 = [] → Plain faults fs src → ∀ p, spec p = fs.entry (src ++ p)
  silent : (∀ call, faults call = none) → said.2 = []

def Height (fs : FileTree) (src : FilePath) (n : Nat) : Prop :=
  ∀ q, (fs.entry (src ++ q)).isSome → q.length < n

/-- What is below a directory that is there already. -/
def entered (fs : FileTree) (src dest : FilePath) : FilePath → Option Entry
  | [] => some .directory
  | name :: p =>
    if (faults (.metadata dest)).isNone && (faults (.readDir src)).isNone &&
      (faults (.readEntry (src ++ [name]))).isNone then
      copiedEntry faults fs (src ++ [name]) (dest ++ [name]) p
    else none

variable {faults display} {fs fs' : FileTree} {src dest dir p : FilePath} {name : String}
  {e : Entry} {n : Nat} {said : Said}

theorem Plain.child (h : Plain faults fs src) (name : String) :
    Plain faults fs (src ++ [name]) := by
  intro q
  rw [← List.append_cons]
  exact h (name :: q)

theorem Height.child (h : Height fs src (n + 1)) (name : String) :
    Height fs (src ++ [name]) n := by
  intro q hq
  rw [← List.append_cons] at hq
  have hlength := h (name :: q) hq
  rw [List.length_cons] at hlength
  omega

theorem copiedEntry_cons_of_ne (h : fs.entry src ≠ some .directory) (name : String)
    (p : FilePath) : copiedEntry faults fs src dest (name :: p) = none := by
  rw [copiedEntry, if_neg]
  simp [opened, h]

theorem copiedEntry_directory (hmeta : faults (.metadata src) = none)
    (h : fs.entry src = some .directory) :
    copiedEntry faults fs src dest p =
      if (faults (.createDir dest)).isSome then none else entered faults fs src dest p := by
  rcases p with _ | ⟨name, p⟩
  · simp [copiedEntry, copiedAt, entered, hmeta, h]
  · rw [copiedEntry, opened, entered, hmeta, h]
    cases faults (.createDir dest) with
    | none => simp
    | some failure => simp

theorem entries_child (h : ∀ q, fs.entry (src ++ q) = fs'.entry (src ++ q)) (name : String)
    (q : FilePath) : fs.entry (src ++ [name] ++ q) = fs'.entry (src ++ [name] ++ q) := by
  rw [← List.append_cons, h]

/-- Only what is below the source is read. -/
theorem copiedEntry_congr (h : ∀ q, fs.entry (src ++ q) = fs'.entry (src ++ q)) :
    copiedEntry faults fs src dest p = copiedEntry faults fs' src dest p := by
  have hsrc := h []
  rw [List.append_nil] at hsrc
  induction p generalizing src dest with
  | nil => rw [copiedEntry, copiedEntry, copiedAt, copiedAt, hsrc]
  | cons name p ih =>
    rw [copiedEntry, copiedEntry, opened, opened, hsrc, ih (entries_child h name) (h [name])]

theorem copiedEntry_of_missing (h : fs.entry src = none) :
    copiedEntry faults fs src dest p = none := by
  cases p with
  | nil => simp [copiedEntry, copiedAt, h]
  | cons name p => exact copiedEntry_cons_of_ne (by simp [h]) name p

theorem no_failure {call : Call} {failure : Failure} {motive : Prop}
    (h : faults call = some failure) (hcalls : ∀ call, faults call = none) : motive := by
  rw [hcalls] at h
  exact absurd h (by simp)

theorem not_quiet {text : String} {motive : Prop} (h : [text] = []) : motive :=
  absurd h (List.cons_ne_nil _ _)

/-- Nothing is made in a place that is free. -/
theorem Copies.of_left_out (hfree : fs.entry dest = none) (hfs : said.1 = fs)
    (hspec : ∀ p, copiedEntry faults fs src dest p = none)
    (hquiet : said.2 = [] → Plain faults fs src → fs.entry src = none)
    (hsilent : (∀ call, faults call = none) → said.2 = []) :
    Copies faults fs src dest (copiedEntry faults fs src dest) said where
  entry_eq := by
    apply eq_graft
    · intro p
      rw [hfs, entry_append_of_none hfree, hspec]
    · intro path _
      rw [hfs]
  quiet := by
    intro hsaid hplain p
    rw [hspec, entry_append_of_none (hquiet hsaid hplain)]
  silent := hsilent

/-- One entry is made in a place that is free. -/
theorem Copies.of_made (hdir : fs.entry dir = some .directory)
    (hfree : fs.entry (dir ++ [name]) = none)
    (hfs : said.1 = fs.add dir name e hdir (by simp [hfree]))
    (hspec : copiedAt faults fs src (dir ++ [name]) = some e)
    (hsrc : fs.entry src ≠ some .directory)
    (hquiet : said.2 = [] → Plain faults fs src → fs.entry src = some e)
    (hsilent : (∀ call, faults call = none) → said.2 = []) :
    Copies faults fs src (dir ++ [name]) (copiedEntry faults fs src (dir ++ [name])) said where
  entry_eq := by
    rw [hfs, entry_add_of_free hdir hfree]
    congr 1
    funext p
    cases p with
    | nil => rw [if_pos rfl, copiedEntry, hspec]
    | cons first p => rw [if_neg (List.cons_ne_nil _ _), copiedEntry_cons_of_ne hsrc]
  quiet := by
    intro hsaid hplain p
    cases p with
    | nil => rw [copiedEntry, hspec, List.append_nil, hquiet hsaid hplain]
    | cons first p =>
      rw [copiedEntry_cons_of_ne hsrc, entry_append_cons_of_ne hsrc]
  silent := hsilent

theorem entered_congr (h : ∀ q, fs.entry (src ++ q) = fs'.entry (src ++ q)) :
    entered faults fs src dest = entered faults fs' src dest := by
  funext p
  cases p with
  | nil => rfl
  | cons name p =>
    rw [entered, entered, copiedEntry_congr (entries_child h name)]

theorem Plain.congr (h : ∀ q, fs.entry (src ++ q) = fs'.entry (src ++ q))
    (hplain : Plain faults fs src) : Plain faults fs' src := by
  intro q
  rw [← h]
  exact hplain q

theorem Height.congr (h : ∀ q, fs.entry (src ++ q) = fs'.entry (src ++ q))
    (hheight : Height fs src n) : Height fs' src n := by
  intro q
  rw [← h]
  exact hheight q

theorem untouched_of_apart {spec : FilePath → Option Entry} (h : Apart src dest)
    (hfs : fs'.entry = graft fs.entry dest spec) (q : FilePath) :
    fs.entry (src ++ q) = fs'.entry (src ++ q) := by
  rw [hfs, graft_of_outside (h.not_within q)]

theorem untouched_of_below {spec : FilePath → Option Entry} (h : Apart src dest)
    (hfs : fs'.entry = graft fs.entry (dest ++ [name]) spec) (q : FilePath) :
    fs.entry (src ++ q) = fs'.entry (src ++ q) := by
  rw [hfs, graft_of_outside (h.append q [name]).2]

/-- What a descent into a directory does, which stands empty at the destination. -/
def Descends (faults : Call → Option Failure)
    (descend : FilePath → FilePath → FileTree → Option Said) (n : Nat) : Prop :=
  ∀ (fs : FileTree) (src dir : FilePath) (name : String),
    fs.entry src = some .directory → fs.entry (dir ++ [name]) = some .directory →
    (∀ first p, fs.entry (dir ++ [name] ++ first :: p) = none) → Apart src (dir ++ [name]) →
    Height fs src n → faults (.createDir (dir ++ [name])) = none →
    ∃ said, descend src (dir ++ [name]) fs = some said ∧
      Copies faults fs src (dir ++ [name]) (entered faults fs src (dir ++ [name])) said

variable {descend : FilePath → FilePath → FileTree → Option Said}

theorem copyEntry_symlink {target : String} (hmeta : faults (.metadata src) = none)
    (hsrc : fs.entry src = some (.symlink target)) (hdir : fs.entry dir = some .directory)
    (hfree : fs.entry (dir ++ [name]) = none) :
    ∃ said, copyEntry faults display descend src (dir ++ [name]) fs = some said ∧
      Copies faults fs src (dir ++ [name]) (copiedEntry faults fs src (dir ++ [name])) said := by
  have hlink : isSymlink faults fs src = true := by simp [isSymlink, hmeta, hsrc]
  have hnone : copiedAt faults fs src (dir ++ [name]) = none →
      ∀ p, copiedEntry faults fs src (dir ++ [name]) p = none := by
    intro hat p
    cases p with
    | nil => exact hat
    | cons first p => exact copiedEntry_cons_of_ne (by simp [hsrc]) first p
  rw [copyEntry, if_pos hlink]
  cases hread : faults (.readLink src) with
  | some failure =>
    refine ⟨(fs, []), by simp [readLink, hread], .of_left_out hfree rfl (hnone ?_) ?_ ?_⟩
    · simp [copiedAt, hmeta, hsrc, hread]
    · intro _ hplain
      have hplain := (hplain []).2.2.2
      rw [List.append_nil, hread] at hplain
      exact absurd hplain (by simp)
    · exact fun _ => rfl
  | none =>
    have htarget : readLink faults fs src = some target := by simp [readLink, hread, hsrc]
    rw [htarget]
    cases hmake : faults (.symlink (dir ++ [name])) with
    | some failure =>
      simp only [symlink, hmake]
      refine ⟨_, rfl, .of_left_out hfree rfl (hnone ?_) ?_ ?_⟩
      · simp [copiedAt, hmeta, hsrc, hread, hmake]
      · exact not_quiet
      · exact no_failure hmake
    | none =>
      simp only [symlink, hmake, create_of_free hdir hfree]
      refine ⟨_, rfl, .of_made hdir hfree rfl ?_ (by simp [hsrc]) (fun _ _ => hsrc)
        fun _ => rfl⟩
      simp [copiedAt, hmeta, hsrc, hread, hmake]

theorem copyEntry_file {content : List UInt8} (hmeta : faults (.metadata src) = none)
    (hsrc : fs.entry src = some (.file content)) (hdir : fs.entry dir = some .directory)
    (hfree : fs.entry (dir ++ [name]) = none) :
    ∃ said, copyEntry faults display descend src (dir ++ [name]) fs = some said ∧
      Copies faults fs src (dir ++ [name]) (copiedEntry faults fs src (dir ++ [name])) said := by
  have hlink : ¬ isSymlink faults fs src = true := by simp [isSymlink, hmeta, hsrc]
  have hnotDir : ¬ isDir faults fs src = true := by simp [isDir, hsrc]
  have hfile : isFile faults fs src = true := by simp [isFile, hmeta, hsrc]
  rw [copyEntry, if_neg hlink, if_neg hnotDir, if_pos hfile]
  cases hcopy : faults (.copy src (dir ++ [name])) with
  | none =>
    simp only [copy, hcopy, hsrc, write_of_free hdir hfree]
    refine ⟨_, rfl, .of_made hdir hfree rfl ?_ (by simp [hsrc]) (fun _ _ => hsrc)
      fun _ => rfl⟩
    simp [copiedAt, hmeta, hsrc, hcopy]
  | some failure =>
    cases hleft : failure.left with
    | none =>
      simp only [copy, hcopy, hleft]
      refine ⟨_, rfl, .of_left_out hfree rfl ?_ not_quiet (no_failure hcopy)⟩
      intro p
      cases p with
      | nil => simp [copiedEntry, copiedAt, hmeta, hsrc, hcopy, hleft]
      | cons first p => exact copiedEntry_cons_of_ne (by simp [hsrc]) first p
    | some part =>
      simp only [copy, hcopy, hleft, write_of_free hdir hfree]
      refine ⟨_, rfl, .of_made hdir hfree rfl ?_ (by simp [hsrc]) not_quiet (no_failure hcopy)⟩
      simp [copiedAt, hmeta, hsrc, hcopy, hleft]

theorem copyEntry_directory (hdescend : Descends faults descend n)
    (hmeta : faults (.metadata src) = none) (hsrc : fs.entry src = some .directory)
    (hdir : fs.entry dir = some .directory) (hfree : fs.entry (dir ++ [name]) = none)
    (hapart : Apart src (dir ++ [name])) (hheight : Height fs src n) :
    ∃ said, copyEntry faults display descend src (dir ++ [name]) fs = some said ∧
      Copies faults fs src (dir ++ [name]) (copiedEntry faults fs src (dir ++ [name])) said := by
  have hlink : ¬ isSymlink faults fs src = true := by simp [isSymlink, hsrc]
  have hisDir : isDir faults fs src = true := by simp [isDir, hmeta, hsrc]
  have hspec : ∀ p, copiedEntry faults fs src (dir ++ [name]) p = _ := fun p =>
    copiedEntry_directory hmeta hsrc
  rw [copyEntry, if_neg hlink, if_pos hisDir]
  cases hmake : faults (.createDir (dir ++ [name])) with
  | some failure =>
    have hrefused : faults (.createDir (dir ++ [name])) ≠ none := by simp [hmake]
    obtain ⟨error, herror⟩ := createDirAll_fails hrefused hdir hfree
    simp only [herror]
    refine ⟨_, rfl, .of_left_out hfree rfl ?_ not_quiet ?_⟩
    · intro p
      rw [hspec, hmake, Option.isSome_some, if_pos rfl]
    · exact no_failure hmake
  | none =>
    have hmade := entry_add_of_free (e := .directory) hdir hfree
    have huntouched := untouched_of_apart hapart hmade
    simp only [createDirAll_of_free hmake hdir hfree]
    obtain ⟨said, hrun, hcopies⟩ := hdescend (fs.add dir name .directory hdir (by simp [hfree]))
      src dir name (by simpa [hsrc] using (huntouched []).symm)
      (by rw [entry_add, Function.update_self])
      (fun first p => by rw [hmade, graft_append, if_neg (List.cons_ne_nil _ _)]) hapart
      (hheight.congr huntouched) hmake
    have hsame : copiedEntry faults fs src (dir ++ [name]) =
        entered faults fs src (dir ++ [name]) := by
      funext p
      rw [hspec, hmake, Option.isSome_none, if_neg Bool.false_ne_true]
    refine ⟨said, hrun, ?_, ?_, hcopies.silent⟩
    · rw [hcopies.entry_eq, hmade, graft_graft, hsame, entered_congr huntouched]
    · intro hsaid hplain p
      rw [huntouched, ← hcopies.quiet hsaid (hplain.congr huntouched) p, hsame,
        entered_congr huntouched]

theorem copyEntry_copies (display : FilePath → String) (hdescend : Descends faults descend n)
    (hdir : fs.entry dir = some .directory) (hfree : fs.entry (dir ++ [name]) = none)
    (hapart : Apart src (dir ++ [name])) (hheight : Height fs src n) :
    ∃ said, copyEntry faults display descend src (dir ++ [name]) fs = some said ∧
      Copies faults fs src (dir ++ [name]) (copiedEntry faults fs src (dir ++ [name])) said := by
  have hskip : isSymlink faults fs src = false → isDir faults fs src = false →
      isFile faults fs src = false →
      copyEntry faults display descend src (dir ++ [name]) fs = some (fs, []) := by
    intro hlink hisDir hfile
    simp [copyEntry, hlink, hisDir, hfile]
  cases hmeta : faults (.metadata src) with
  | some failure =>
    refine ⟨_, hskip (by simp [isSymlink, hmeta]) (by simp [isDir, hmeta])
      (by simp [isFile, hmeta]), .of_left_out hfree rfl ?_ ?_ fun _ => rfl⟩
    · intro p
      cases p with
      | nil => simp [copiedEntry, copiedAt, hmeta]
      | cons first p => simp [copiedEntry, opened, hmeta]
    · intro _ hplain
      have hlook := (hplain []).2.1
      rw [List.append_nil, hmeta] at hlook
      exact absurd hlook (by simp)
  | none =>
    rcases hsrc : fs.entry src with _ | _ | _ | _ | _
    · exact ⟨_, hskip (by simp [isSymlink, hsrc]) (by simp [isDir, hsrc]) (by simp [isFile, hsrc]),
        .of_left_out hfree rfl (fun p => copiedEntry_of_missing hsrc) (fun _ _ => hsrc)
          fun _ => rfl⟩
    · exact copyEntry_file hmeta hsrc hdir hfree
    · exact copyEntry_directory hdescend hmeta hsrc hdir hfree hapart hheight
    · exact copyEntry_symlink hmeta hsrc hdir hfree
    · refine ⟨_, hskip (by simp [isSymlink, hsrc]) (by simp [isDir, hsrc]) (by simp [isFile, hsrc]),
        .of_left_out hfree rfl ?_ ?_ fun _ => rfl⟩
      · intro p
        cases p with
        | nil => simp [copiedEntry, copiedAt, hmeta, hsrc]
        | cons first p => exact copiedEntry_cons_of_ne (by simp [hsrc]) first p
      · intro _ hplain
        exact absurd (by rwa [List.append_nil]) (hplain []).1

/-- What the copies of entries with the given names do. -/
structure CopiesEach (faults : Call → Option Failure) (fs : FileTree) (src dest : FilePath)
    (names : List String) (said : Said) : Prop where
  named : ∀ name ∈ names, ∀ p,
    said.1.entry (dest ++ name :: p) = copiedEntry faults fs (src ++ [name]) (dest ++ [name]) p
  other : ∀ path, (∀ name ∈ names, ¬ dest ++ [name] <+: path) →
    said.1.entry path = fs.entry path
  quiet : said.2 = [] → Plain faults fs src → ∀ name ∈ names, ∀ p,
    copiedEntry faults fs (src ++ [name]) (dest ++ [name]) p = fs.entry (src ++ name :: p)
  silent : (∀ call, faults call = none) → said.2 = []

/-- The copies of entries do not meet, and none changes what another reads. -/
theorem CopiesEach.cons {names : List String} {first rest : Said} (hapart : Apart src dest)
    (hname : name ∉ names)
    (hfirst : Copies faults fs (src ++ [name]) (dest ++ [name])
      (copiedEntry faults fs (src ++ [name]) (dest ++ [name])) first)
    (hrest : CopiesEach faults first.1 src dest names rest) :
    CopiesEach faults fs src dest (name :: names) (rest.1, first.2 ++ rest.2) := by
  have huntouched := untouched_of_below hapart hfirst.entry_eq
  have hsame : ∀ other p, copiedEntry faults first.1 (src ++ [other]) (dest ++ [other]) p =
      copiedEntry faults fs (src ++ [other]) (dest ++ [other]) p := by
    intro other p
    apply copiedEntry_congr
    intro q
    exact (entries_child huntouched other q).symm
  constructor
  · intro other hother p
    rcases List.mem_cons.mp hother with rfl | hmem
    · have hkept := hrest.other (dest ++ other :: p) fun sibling hsibling =>
        not_prefix_sibling (ne_of_mem_of_not_mem hsibling hname) [] p
      rw [hkept, hfirst.entry_eq, graft_cons]
    · rw [hrest.named other hmem, hsame]
  · intro path hpath
    rw [hrest.other path fun other hmem => hpath other (List.mem_cons_of_mem _ hmem),
      hfirst.entry_eq, graft_of_outside (hpath name List.mem_cons_self)]
  · intro hsaid hplain other hother p
    obtain ⟨hfirstSaid, hrestSaid⟩ := List.append_eq_nil_iff.mp hsaid
    rcases List.mem_cons.mp hother with rfl | hmem
    · rw [hfirst.quiet hfirstSaid (hplain.child other), ← List.append_cons]
    · rw [huntouched, ← hrest.quiet hrestSaid (hplain.congr huntouched) other hmem, hsame]
  · intro hcalls
    exact List.append_eq_nil_iff.mpr ⟨hfirst.silent hcalls, hrest.silent hcalls⟩

theorem copyEntries_copies (display : FilePath → String) (hdescend : Descends faults descend n)
    {names : List String} (hnodup : names.Nodup) (hapart : Apart src dest)
    (hheight : Height fs src (n + 1))
    (hdest : fs.entry dest = some .directory)
    (hfree : ∀ name ∈ names, fs.entry (dest ++ [name]) = none) :
    ∃ said, copyEntries faults display descend src dest names fs = some said ∧
      CopiesEach faults fs src dest names said := by
  induction names generalizing fs with
  | nil => exact ⟨_, rfl, nofun, fun _ _ => rfl, fun _ _ => nofun, fun _ => rfl⟩
  | cons name names ih =>
    obtain ⟨hname, hnodup⟩ := List.nodup_cons.mp hnodup
    obtain ⟨first, hfirst, hcopies⟩ := copyEntry_copies display hdescend hdest
      (hfree name List.mem_cons_self) (hapart.append [name] [name]) (hheight.child name)
    have huntouched := untouched_of_below hapart hcopies.entry_eq
    obtain ⟨rest, hrest, heach⟩ := ih hnodup (hheight.congr huntouched)
      (by rw [hcopies.entry_eq, graft_of_outside (not_prefix_self dest name []), hdest])
      (fun other hother => by
        rw [hcopies.entry_eq, graft_of_outside, hfree other (List.mem_cons_of_mem _ hother)]
        exact not_prefix_sibling (ne_of_mem_of_not_mem hother hname).symm [] [])
    exact ⟨_, by simp [copyEntries, hfirst, hrest], .cons hapart hname hcopies heach⟩

/-- What is below a directory whose names have been read. -/
def listed (faults : Call → Option Failure) (fs : FileTree) (src dest : FilePath) :
    FilePath → Option Entry
  | [] => some .directory
  | name :: p =>
    if (faults (.readEntry (src ++ [name]))).isNone then
      copiedEntry faults fs (src ++ [name]) (dest ++ [name]) p
    else none

def unread : FilePath → Option Entry
  | [] => some .directory
  | _ :: _ => none

theorem entered_eq : entered faults fs src dest =
    if (faults (.metadata dest)).isNone && (faults (.readDir src)).isNone then
      listed faults fs src dest
    else unread := by
  funext p
  cases p with
  | nil => split_ifs <;> rfl
  | cons name p =>
    rw [entered]
    cases (faults (.metadata dest)).isNone && (faults (.readDir src)).isNone with
    | true => rfl
    | false => rfl

theorem graft_unread (hdest : fs.entry dest = some .directory)
    (hempty : ∀ first p, fs.entry (dest ++ first :: p) = none) :
    fs.entry = graft fs.entry dest unread := by
  apply eq_graft
  · intro p
    cases p with
    | nil => rw [List.append_nil, hdest, unread]
    | cons first p => rw [hempty, unread]
  · exact fun _ _ => rfl

theorem copyEntries_listed (display : FilePath → String) (hdescend : Descends faults descend n)
    (hapart : Apart src dest) (hheight : Height fs src (n + 1))
    (hsrc : fs.entry src = some .directory)
    (hdest : fs.entry dest = some .directory)
    (hempty : ∀ first p, fs.entry (dest ++ first :: p) = none) :
    ∃ said, copyEntries faults display descend src dest
        ((fs.names src).filter fun name => (faults (.readEntry (src ++ [name]))).isNone) fs =
          some said ∧
      Copies faults fs src dest (listed faults fs src dest) said := by
  obtain ⟨said, hrun, heach⟩ := copyEntries_copies display hdescend
    ((fs.nodup_names src).filter _) hapart hheight hdest fun name _ => hempty name []
  have hmem : ∀ name, (faults (.readEntry (src ++ [name]))).isNone = true →
      fs.entry (src ++ [name]) ≠ none →
      name ∈ (fs.names src).filter fun name => (faults (.readEntry (src ++ [name]))).isNone := by
    intro name hread hsome
    rw [List.mem_filter, fs.mem_names]
    exact ⟨Option.isSome_iff_ne_none.mpr hsome, hread⟩
  refine ⟨said, hrun, eq_graft ?_ ?_, ?_, heach.silent⟩
  · intro p
    cases p with
    | nil =>
      rw [List.append_nil, heach.other dest fun name _ => not_prefix_self dest name [], hdest,
        listed]
    | cons name p =>
      by_cases hname : name ∈ (fs.names src).filter
          fun name => (faults (.readEntry (src ++ [name]))).isNone
      · rw [heach.named name hname, listed, if_pos (List.mem_filter.mp hname).2]
      · rw [heach.other, hempty, listed]
        · split_ifs with hread
          · rw [copiedEntry_of_missing]
            by_contra hsome
            exact hname (hmem name hread hsome)
          · rfl
        · intro other hother
          exact not_prefix_sibling (ne_of_mem_of_not_mem hother hname) [] p
  · intro path hpath
    refine heach.other path fun name _ hwithin => hpath ?_
    exact (List.prefix_append dest [name]).trans hwithin
  · intro hsaid hplain p
    cases p with
    | nil => rw [listed, List.append_nil, hsrc]
    | cons name p =>
      have hread : (faults (.readEntry (src ++ [name]))).isNone = true := by
        rw [(hplain [name]).2.2.1, Option.isNone_none]
      rw [listed, if_pos hread]
      by_cases hsome : fs.entry (src ++ [name]) = none
      · rw [copiedEntry_of_missing hsome, List.append_cons, entry_append_of_none hsome]
      · exact heach.quiet hsaid hplain name (hmem name hread hsome) p

theorem copyDirectory_descends (display : FilePath → String) (n : Nat) :
    Descends faults (copyDirectory faults display n) n := by
  induction n with
  | zero =>
    intro fs src dir name hsrc _ _ _ hheight
    have hlength := hheight [] (by rw [List.append_nil, hsrc, Option.isSome_some])
    omega
  | succ n ih =>
    intro fs src dir name hsrc hdest hempty hapart hheight hfault
    simp only [copyDirectory, createDirAll_existing hdest hfault, entered_eq]
    cases hmeta : faults (.metadata (dir ++ [name])) with
    | some failure =>
      refine ⟨_, rfl, graft_unread hdest hempty, not_quiet, ?_⟩
      exact no_failure hmeta
    | none =>
      cases hread : faults (.readDir src) with
      | some failure =>
        have hunread : readDir faults fs src = none := by simp [readDir, hread]
        simp only [Option.isNone_none, if_pos, hunread]
        refine ⟨_, rfl, graft_unread hdest hempty, not_quiet, ?_⟩
        exact no_failure hread
      | none =>
        have hnames : readDir faults fs src = some (fs.names src) := by
          simp [readDir, hread, hsrc]
        simp only [Option.isNone_none, if_pos, hnames, Bool.and_self]
        exact copyEntries_listed display ih hapart hheight hsrc hdest hempty

end Copies

section Folders

/-- What the copy of a folder of the boilerplate does. -/
structure FolderCopied (faults : Call → Option Failure) (fs : FileTree) (src dest : FilePath)
    (spec : FilePath → Option Entry) (said : Said) : Prop where
  entry_eq : said.1.entry = graft fs.entry dest spec
  quiet : said.2 = [] → Plain faults fs src → ∀ p, spec p = fs.entry (src ++ p)
  silent : (∀ call, faults call = none) → fs.entry src = some .directory → said.2 = []

variable {faults : Call → Option Failure} {display : FilePath → String} {fs fs' : FileTree}
  {src dest dir p : FilePath} {name : String} {fuel : Nat}

theorem copiedFolder_eq : copiedFolder faults fs src dest =
    if (faults (.createDir dest)).isSome then fun _ => none
    else if (faults (.readDir src)).isNone then listed faults fs src dest
    else unread := by
  funext p
  cases p with
  | nil =>
    rw [copiedFolder]
    split_ifs <;> rfl
  | cons name p =>
    rw [copiedFolder]
    cases faults (.createDir dest) with
    | some failure => rfl
    | none =>
      cases faults (.readDir src) with
      | some failure => rfl
      | none => rfl

theorem listed_of_not_directory (h : fs.entry src ≠ some .directory) :
    listed faults fs src dest = unread := by
  funext p
  cases p with
  | nil => rfl
  | cons name p =>
    have hmissing : fs.entry (src ++ [name]) = none := entry_append_cons_of_ne h name []
    rw [listed, copiedEntry_of_missing hmissing, ite_self, unread]

theorem listed_congr (h : ∀ q, fs.entry (src ++ q) = fs'.entry (src ++ q)) :
    listed faults fs src dest = listed faults fs' src dest := by
  funext p
  cases p with
  | nil => rfl
  | cons name p =>
    rw [listed, listed, copiedEntry_congr (entries_child h name)]

theorem copiedFolder_congr (h : ∀ q, fs.entry (src ++ q) = fs'.entry (src ++ q)) :
    copiedFolder faults fs src dest = copiedFolder faults fs' src dest := by
  rw [copiedFolder_eq, copiedFolder_eq, listed_congr h]

theorem copyDirectory_folder (display : FilePath → String) (hfuel : 0 < fuel)
    (hheight : Height fs src fuel) (hapart : Apart src (dir ++ [name]))
    (hdir : fs.entry dir = some .directory) (hfree : fs.entry (dir ++ [name]) = none) :
    ∃ said, copyDirectory faults display fuel src (dir ++ [name]) fs = some said ∧
      FolderCopied faults fs src (dir ++ [name])
        (copiedFolder faults fs src (dir ++ [name])) said := by
  obtain ⟨n, rfl⟩ : ∃ n, fuel = n + 1 := ⟨fuel - 1, by omega⟩
  rw [copiedFolder_eq]
  cases hmake : faults (.createDir (dir ++ [name])) with
  | some failure =>
    have hrefused : faults (.createDir (dir ++ [name])) ≠ none := by simp [hmake]
    obtain ⟨error, herror⟩ := createDirAll_fails hrefused hdir hfree
    simp only [copyDirectory, herror, Option.isSome_some, if_pos]
    refine ⟨_, rfl, eq_graft ?_ fun _ _ => rfl, not_quiet, ?_⟩
    · exact entry_append_of_none hfree
    · exact no_failure hmake
  | none =>
    have hmade := entry_add_of_free (e := .directory) hdir hfree
    have huntouched := untouched_of_apart hapart hmade
    have hdest : (fs.add dir name .directory hdir (by simp [hfree])).entry (dir ++ [name]) =
        some .directory := by
      rw [entry_add, Function.update_self]
    have hempty : ∀ first p, (fs.add dir name .directory hdir (by simp [hfree])).entry
        (dir ++ [name] ++ first :: p) = none := by
      intro first p
      rw [hmade, graft_append, if_neg (List.cons_ne_nil _ _)]
    simp only [copyDirectory, createDirAll_of_free hmake hdir hfree, Option.isSome_none,
      Bool.false_eq_true, if_false]
    by_cases hreads : faults (.readDir src) = none ∧ fs.entry src = some .directory
    · obtain ⟨hread, hsrc⟩ := hreads
      have hsame := huntouched []
      rw [List.append_nil, hsrc] at hsame
      have hnames : readDir faults (fs.add dir name .directory hdir (by simp [hfree])) src =
          some ((fs.add dir name .directory hdir (by simp [hfree])).names src) := by
        rw [readDir, hread, ← hsame]
        simp
      obtain ⟨said, hrun, hcopies⟩ := copyEntries_listed display
        (copyDirectory_descends display n) hapart (hheight.congr huntouched) hsame.symm hdest hempty
      simp only [hnames, hread, Option.isNone_none, if_pos]
      refine ⟨said, hrun, ?_, ?_, fun hcalls _ => hcopies.silent hcalls⟩
      · rw [hcopies.entry_eq, hmade, graft_graft, listed_congr huntouched]
      · intro hsaid hplain p
        rw [huntouched, ← hcopies.quiet hsaid (hplain.congr huntouched) p,
          listed_congr huntouched]
    · have hunread : readDir faults (fs.add dir name .directory hdir (by simp [hfree])) src =
          none := by
        have hsame := huntouched []
        rw [List.append_nil] at hsame
        rw [readDir, ← hsame, if_neg]
        simpa using hreads
      have hspec : (if (faults (.readDir src)).isNone then listed faults fs src (dir ++ [name])
          else unread) = unread := by
        split_ifs with hread
        · exact listed_of_not_directory fun hsrc =>
            hreads ⟨Option.isNone_iff_eq_none.mp hread, hsrc⟩
        · rfl
      simp only [hunread, hspec]
      refine ⟨_, rfl, ?_, not_quiet, fun hcalls hsrc => absurd ⟨hcalls _, hsrc⟩ hreads⟩
      have hgraft := graft_unread hdest hempty
      rw [hmade, graft_graft] at hgraft
      rw [hmade, hgraft]

/-- What is done about a folder that may be asked for. -/
structure AskedCopied (faults : Call → Option Failure) (asked : Bool) (fs : FileTree)
    (src dest : FilePath) (said : Said) : Prop where
  entry_eq : said.1.entry =
    graft fs.entry dest fun p => if asked then copiedFolder faults fs src dest p else none
  quiet : said.2 = [] → asked = true → Plain faults fs src →
    ∀ p, copiedFolder faults fs src dest p = fs.entry (src ++ p)
  silent : (∀ call, faults call = none) → (asked = true → fs.entry src = some .directory) →
    said.2 = []

theorem copyWanted_folder (faults : Call → Option Failure) (display : FilePath → String)
    (flag : Bool) (promptFn : String → Bool) (question name : String) (hfuel : 0 < fuel)
    (hheight : Height fs src fuel) (hapart : Apart src (dir ++ [name]))
    (hdir : fs.entry dir = some .directory)
    (hfree : fs.entry (dir ++ [name]) = none) :
    ∃ said, copyWanted faults display fuel flag promptFn question src (dir ++ [name]) fs =
        some said ∧
      AskedCopied faults (flag || promptFn question) fs src (dir ++ [name]) said := by
  cases hasked : flag || promptFn question with
  | true =>
    obtain ⟨said, hrun, hcopied⟩ :=
      copyDirectory_folder display hfuel hheight hapart hdir hfree
    refine ⟨said, ?_, hcopied.entry_eq, fun hsaid _ => hcopied.quiet hsaid,
      fun hcalls hsrc => hcopied.silent hcalls (hsrc rfl)⟩
    rw [copyWanted]
    cases flag with
    | true => exact hrun
    | false =>
      rw [Bool.false_or] at hasked
      rw [Bool.not_false, if_pos rfl, if_pos hasked, hrun]
  | false =>
    obtain ⟨rfl, hanswer⟩ := Bool.or_eq_false_iff.mp hasked
    refine ⟨(fs, []), ?_, eq_graft ?_ fun _ _ => rfl, nofun, fun _ _ => rfl⟩
    · rw [copyWanted, Bool.not_false, if_pos rfl, hanswer, if_neg Bool.false_ne_true]
    · exact entry_append_of_none hfree

end Folders

section Repository

variable (faults : Call → Option Failure) (resolve : String → FilePath) (args : CreateArgs)
  (promptFn : String → Bool) (fs : FileTree)

/-- The new directory has a free place and is not refused. -/
def Creatable : Prop :=
  faults (.createDir (resolve args.name)) = none ∧ ∃ dir name, resolve args.name = dir ++ [name] ∧
    fs.entry dir = some .directory ∧ fs.entry (dir ++ [name]) = none

structure Generates (out : Said × Except String Unit) : Prop where
  created : out.2 = .ok () ↔ Creatable faults resolve args fs
  refused : out.2 ≠ .ok () → out.1 = (fs, [])
  entry_eq : out.2 = .ok () →
    out.1.1.entry = graft fs.entry (resolve args.name) (generated faults fs resolve args promptFn)
  quiet : out.2 = .ok () → out.1.2 = [] → ∀ folder, wanted args promptFn folder = true →
    Plain faults fs (boilerplate resolve args folder) →
    ∀ p, out.1.1.entry (resolve args.name ++ folder :: p) =
      fs.entry (boilerplate resolve args folder ++ p)
  silent : (∀ call, faults call = none) →
    (∀ folder, wanted args promptFn folder = true →
      fs.entry (boilerplate resolve args folder) = some .directory) → out.1.2 = []

variable {faults resolve args promptFn fs}

theorem exists_height (fs : FileTree) : ∃ n, ∀ fuel, n ≤ fuel → ∀ src, Height fs src fuel := by
  obtain ⟨depth, hdepth⟩ := fs.finite
  refine ⟨depth + 1, fun fuel hfuel src q hq => ?_⟩
  have hlength := hdepth _ hq
  rw [List.length_append] at hlength
  omega

theorem wanted_conventional : wanted args promptFn "conventional-templates" =
    (args.manifest || promptFn conventionalQuestion) := by
  simp [wanted]

theorem wanted_helm : wanted args promptFn "helm-based-templates" =
    (args.helm || promptFn helmQuestion) := by
  simp [wanted]

theorem wanted_iff {folder : String} : wanted args promptFn folder = true ↔
    folder = "conventional-templates" ∧ wanted args promptFn "conventional-templates" = true ∨
      folder = "helm-based-templates" ∧ wanted args promptFn "helm-based-templates" = true := by
  rw [wanted_conventional, wanted_helm]
  simp [wanted]

/-- The two copies together make the repository, each from what the other leaves as it was. -/
theorem Generates.of_copies {fs₁ : FileTree} {first rest : Said}
    (hcreatable : Creatable faults resolve args fs)
    (hconventional : Apart (boilerplate resolve args "conventional-templates") (resolve args.name))
    (hhelm : Apart (boilerplate resolve args "helm-based-templates") (resolve args.name))
    (hmade : fs₁.entry = graft fs.entry (resolve args.name) unread)
    (hfirst : AskedCopied faults (wanted args promptFn "conventional-templates") fs₁
      (boilerplate resolve args "conventional-templates")
      (resolve args.name ++ ["conventional-templates"]) first)
    (hrest : AskedCopied faults (wanted args promptFn "helm-based-templates") first.1
      (boilerplate resolve args "helm-based-templates")
      (resolve args.name ++ ["helm-based-templates"]) rest) :
    Generates faults resolve args promptFn fs ((rest.1, first.2 ++ rest.2), .ok ()) := by
  have hfirstSrc := untouched_of_apart hconventional hmade
  have hrestSrc : ∀ q, fs.entry (boilerplate resolve args "helm-based-templates" ++ q) =
      first.1.entry (boilerplate resolve args "helm-based-templates" ++ q) := fun q =>
    (untouched_of_apart hhelm hmade q).trans (untouched_of_below hhelm hfirst.entry_eq q)
  have hbelow : ∀ folder p, rest.1.entry (resolve args.name ++ folder :: p) =
      if wanted args promptFn folder then
        copiedFolder faults fs (boilerplate resolve args folder) (resolve args.name ++ [folder]) p
      else none := by
    intro folder p
    rw [hrest.entry_eq]
    rcases eq_or_ne folder "helm-based-templates" with rfl | hnotHelm
    · rw [graft_cons, copiedFolder_congr hrestSrc]
    rw [graft_of_outside (not_prefix_sibling hnotHelm.symm [] p), hfirst.entry_eq]
    rcases eq_or_ne folder "conventional-templates" with rfl | hnotConventional
    · rw [graft_cons, copiedFolder_congr hfirstSrc]
    · have hnot : ¬ wanted args promptFn folder = true := by
        simp [wanted, hnotConventional, hnotHelm]
      rw [graft_of_outside (not_prefix_sibling hnotConventional.symm [] p), hmade,
        graft_append, unread, if_neg hnot]
  refine ⟨iff_of_true rfl hcreatable, fun h => absurd rfl h, fun _ => eq_graft ?_ ?_, ?_, ?_⟩
  · intro p
    cases p with
    | nil =>
      rw [List.append_nil, hrest.entry_eq, graft_of_outside (not_prefix_self _ _ []),
        hfirst.entry_eq, graft_of_outside (not_prefix_self _ _ []), hmade, graft_self, unread,
        generated]
    | cons folder p => rw [hbelow, generated]
  · intro path hpath
    have hnot : ∀ folder, ¬ resolve args.name ++ [folder] <+: path := fun folder hwithin =>
      hpath ((List.prefix_append _ [folder]).trans hwithin)
    rw [hrest.entry_eq, graft_of_outside (hnot _), hfirst.entry_eq,
      graft_of_outside (hnot _), hmade, graft_of_outside hpath]
  · intro _ hsaid folder hwanted hplain p
    obtain ⟨hfirstSaid, hrestSaid⟩ := List.append_eq_nil_iff.mp hsaid
    rw [hbelow, if_pos hwanted]
    rcases wanted_iff.mp hwanted with ⟨rfl, hasked⟩ | ⟨rfl, hasked⟩
    · rw [copiedFolder_congr hfirstSrc, hfirstSrc]
      exact hfirst.quiet hfirstSaid hasked (hplain.congr hfirstSrc) p
    · rw [copiedFolder_congr hrestSrc, hrestSrc]
      exact hrest.quiet hrestSaid hasked (hplain.congr hrestSrc) p
  · intro hcalls hsrc
    have hfirstDir := hfirstSrc []
    have hrestDir := hrestSrc []
    rw [List.append_nil] at hfirstDir hrestDir
    exact List.append_eq_nil_iff.mpr
      ⟨hfirst.silent hcalls fun hasked => hfirstDir ▸ hsrc _ hasked,
        hrest.silent hcalls fun hasked => hrestDir ▸ hsrc _ hasked⟩

theorem generateTemplateRepo_of_creatable (display : FilePath → String) {fuel : Nat}
    (hconventional : Apart (boilerplate resolve args "conventional-templates") (resolve args.name))
    (hhelm : Apart (boilerplate resolve args "helm-based-templates") (resolve args.name))
    (hfuel : 0 < fuel) (hheight : ∀ src, Height fs src fuel)
    (hcreatable : Creatable faults resolve args fs) :
    ∃ out, generateTemplateRepo faults display resolve fuel args promptFn fs = some out ∧
      Generates faults resolve args promptFn fs out := by
  obtain ⟨hfault, dir, name, hroot, hdir, hfree⟩ := id hcreatable
  have hstart : ∃ fs₁, createDir faults fs (resolve args.name) = (fs₁, none) ∧
      fs₁.entry = graft fs.entry (resolve args.name) unread := by
    rw [hroot] at hfault ⊢
    refine ⟨_, createDir_of_free hfault hdir hfree, ?_⟩
    rw [entry_add_of_free hdir hfree]
    congr 1
    funext p
    cases p with
    | nil => rfl
    | cons first p => rfl
  obtain ⟨fs₁, hmake, hmade⟩ := hstart
  have hroot₁ : fs₁.entry (resolve args.name) = some .directory := by
    rw [hmade, graft_self, unread]
  have hfree₁ : ∀ folder, fs₁.entry (resolve args.name ++ [folder]) = none := fun folder => by
    rw [hmade, graft_append, unread]
  have hapart : ∀ {src} folder, Apart src (resolve args.name) →
      Apart src (resolve args.name ++ [folder]) := by
    intro src folder h
    have hbelow := h.append [] [folder]
    rwa [List.append_nil] at hbelow
  obtain ⟨first, hfirstRun, hfirst⟩ := copyWanted_folder faults display args.manifest
    promptFn conventionalQuestion "conventional-templates" hfuel
    ((hheight _).congr (untouched_of_apart hconventional hmade)) (hapart _ hconventional) hroot₁
    (hfree₁ "conventional-templates")
  have hrestSrc : ∀ q, fs.entry (boilerplate resolve args "helm-based-templates" ++ q) =
      first.1.entry (boilerplate resolve args "helm-based-templates" ++ q) := fun q =>
    (untouched_of_apart hhelm hmade q).trans (untouched_of_below hhelm hfirst.entry_eq q)
  obtain ⟨rest, hrestRun, hrest⟩ := copyWanted_folder faults display args.helm promptFn
    helmQuestion "helm-based-templates" hfuel ((hheight _).congr hrestSrc) (hapart _ hhelm)
    (by rw [hfirst.entry_eq, graft_of_outside (not_prefix_self _ _ []), hroot₁])
    (by
      rw [hfirst.entry_eq, graft_of_outside (not_prefix_sibling (by decide) [] []), hfree₁])
  rw [← wanted_conventional] at hfirst
  rw [← wanted_helm] at hrest
  refine ⟨_, ?_, .of_copies hcreatable hconventional hhelm hmade hfirst hrest⟩
  simp [generateTemplateRepo, hmake, hfirstRun, hrestRun]

theorem generateTemplateRepo_of_not_creatable (display : FilePath → String) (fuel : Nat)
    (hnot : ¬ Creatable faults resolve args fs) :
    ∃ out, generateTemplateRepo faults display resolve fuel args promptFn fs = some out ∧
      Generates faults resolve args promptFn fs out := by
  have hrefused : ∃ error, createDir faults fs (resolve args.name) = (fs, some error) := by
    rcases List.eq_nil_or_concat (resolve args.name) with hnil | ⟨dir, name, hroot⟩
    · rw [hnil, createDir]
      cases faults (.createDir []) with
      | some failure => exact ⟨_, rfl⟩
      | none => exact ⟨_, rfl⟩
    · rw [List.concat_eq_append] at hroot
      rw [hroot]
      apply createDir_fails
      by_contra hall
      push Not at hall
      exact hnot ⟨hroot ▸ hall.1, dir, name, hroot, hall.2⟩
  obtain ⟨error, herror⟩ := hrefused
  simp only [generateTemplateRepo, herror]
  refine ⟨_, rfl, iff_of_false nofun hnot, fun _ => rfl, nofun, nofun, fun _ _ => rfl⟩

def homeTree : FileTree :=
  let home := FileTree.empty.add [] "home" .directory rfl (by decide)
  let outer := home.add ["home"] "template-boilerplate" .directory (by decide) (by decide)
  let inner := outer.add ["home", "template-boilerplate"] "conventional-templates" .directory
    (by decide) (by decide)
  inner.add ["home", "template-boilerplate", "conventional-templates"] "test.yaml" (.file [107])
    (by decide) (by decide)

end Repository

end Workflows.Cli.CreateRepository
