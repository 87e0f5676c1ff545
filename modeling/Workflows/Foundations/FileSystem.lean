import Mathlib

/-!
# Trees of files

Paths lead from the root to entries. What is not the root stands in a directory, which lists it.
The paths are resolved: no name on the way is that of a symbolic link.
-/

namespace Workflows.FileSystem

abbrev FilePath := List String

inductive Entry where
  | file (content : List UInt8)
  | directory
  | symlink (target : String)
  | special
  deriving DecidableEq

inductive IoError where
  | notFound
  | alreadyExists
  | notADirectory
  | isADirectory
  | other (text : String)
  deriving DecidableEq

def IoError.text : IoError → String
  | notFound => "No such file or directory (os error 2)"
  | alreadyExists => "File exists (os error 17)"
  | notADirectory => "Not a directory (os error 20)"
  | isADirectory => "Is a directory (os error 21)"
  | other text => text

structure FileTree where
  entry : FilePath → Option Entry
  names : FilePath → List String
  root : entry [] = some .directory
  parent : ∀ path name, (entry (path ++ [name])).isSome → entry path = some .directory
  mem_names : ∀ path name, name ∈ names path ↔ (entry (path ++ [name])).isSome
  nodup_names : ∀ path, (names path).Nodup
  finite : ∃ depth, ∀ path, (entry path).isSome → path.length ≤ depth

section Paths

variable {α : Type*} {path path' p src dest : List α}

/-- Neither path lies inside the other. -/
def Apart (src dest : List α) : Prop := ¬ src <+: dest ∧ ¬ dest <+: src

instance [DecidableEq α] (src dest : List α) : Decidable (Apart src dest) :=
  inferInstanceAs (Decidable (_ ∧ _))

theorem Apart.append (h : Apart src dest) (s d : List α) : Apart (src ++ s) (dest ++ d) := by
  constructor
  · intro hwithin
    have hsrc := (List.prefix_append src s).trans hwithin
    rcases List.prefix_or_prefix_of_prefix hsrc (List.prefix_append dest d) with hp | hp
    · exact h.1 hp
    · exact h.2 hp
  · intro hwithin
    have hdest := (List.prefix_append dest d).trans hwithin
    rcases List.prefix_or_prefix_of_prefix hdest (List.prefix_append src s) with hp | hp
    · exact h.2 hp
    · exact h.1 hp

theorem Apart.not_within (h : Apart src dest) (q : List α) : ¬ dest <+: src ++ q := by
  have hq := (h.append q []).2
  rwa [List.append_nil] at hq

theorem concat_inj {a b : α} : path ++ [a] = path' ++ [b] ↔ path = path' ∧ a = b := by
  simp

theorem append_ne_self {a : α} : path ++ a :: p ≠ path := by
  intro h
  exact absurd (congrArg List.length h) (by simp)

theorem not_prefix_self (dest : List α) (a : α) (p : List α) : ¬ dest ++ a :: p <+: dest := by
  intro h
  have hlength := h.length_le
  rw [List.length_append, List.length_cons] at hlength
  omega

theorem not_prefix_sibling {a b : α} (h : a ≠ b) (p q : List α) :
    ¬ dest ++ a :: p <+: dest ++ b :: q := by
  rw [List.prefix_append_right_inj, List.cons_prefix_cons]
  exact fun hwithin => h hwithin.1

end Paths

namespace FileTree

variable {fs : FileTree} {path path' dir p : FilePath} {name : String} {e : Entry}

/-- Only the root. -/
def empty : FileTree where
  entry path := if path = [] then some .directory else none
  names _ := []
  root := rfl
  parent path name h := by simp at h
  mem_names path name := by simp
  nodup_names _ := List.nodup_nil
  finite := by
    refine ⟨0, fun path h => ?_⟩
    cases path with
    | nil => exact Nat.le_refl 0
    | cons name path => simp at h

/-- An entry takes its place in a directory, or that of another that is no directory. -/
def add (fs : FileTree) (dir : FilePath) (name : String) (e : Entry)
    (hdir : fs.entry dir = some .directory)
    (hplace : fs.entry (dir ++ [name]) ≠ some .directory) : FileTree where
  entry := Function.update fs.entry (dir ++ [name]) (some e)
  names :=
    if name ∈ fs.names dir then fs.names
    else Function.update fs.names dir (fs.names dir ++ [name])
  root := by
    rw [Function.update_of_ne (by simp), fs.root]
  parent := by
    intro path' name' h
    have hnot : path' ≠ dir ++ [name] := by
      rintro rfl
      rw [Function.update_of_ne append_ne_self] at h
      exact hplace (fs.parent _ _ h)
    rw [Function.update_of_ne hnot]
    by_cases hsame : path' ++ [name'] = dir ++ [name]
    · rw [(concat_inj.mp hsame).1, hdir]
    · rw [Function.update_of_ne hsame] at h
      exact fs.parent path' name' h
  mem_names := by
    intro path' name'
    by_cases hsame : path' ++ [name'] = dir ++ [name]
    · obtain ⟨rfl, rfl⟩ := concat_inj.mp hsame
      split_ifs with hmem
      · simp [hmem]
      · simp
    · rw [Function.update_of_ne hsame, ← fs.mem_names]
      split_ifs with hmem
      · rfl
      · rcases eq_or_ne path' dir with rfl | hne
        · have hname : name' ≠ name := fun h => hsame (by rw [h])
          simp [hname]
        · rw [Function.update_of_ne hne]
  nodup_names := by
    intro path'
    split_ifs with hmem
    · exact fs.nodup_names path'
    · rcases eq_or_ne path' dir with rfl | hne
      · rw [Function.update_self]
        exact List.nodup_append.mpr ⟨fs.nodup_names path', by simp, by
          rintro a ha b hb rfl
          exact hmem (List.mem_singleton.mp hb ▸ ha)⟩
      · rw [Function.update_of_ne hne]
        exact fs.nodup_names path'
  finite := by
    obtain ⟨depth, hdepth⟩ := fs.finite
    refine ⟨max depth (dir.length + 1), fun path' h => ?_⟩
    rcases eq_or_ne path' (dir ++ [name]) with rfl | hne
    · rw [List.length_append, List.length_singleton]
      exact le_max_right _ _
    · rw [Function.update_of_ne hne] at h
      exact (hdepth path' h).trans (le_max_left _ _)

/-- Why there is nothing at a path. -/
def missing (fs : FileTree) (path : FilePath) : IoError :=
  if path.inits.any fun q => (fs.entry q).any (· ≠ .directory) then .notADirectory else .notFound

/-- What a call that makes an entry comes to. -/
def create (fs : FileTree) (path : FilePath) (e : Entry) : FileTree × Option IoError :=
  match path.getLast? with
  | none => (fs, some .alreadyExists)
  | some name =>
    if hdir : fs.entry path.dropLast = some .directory then
      if hfree : fs.entry (path.dropLast ++ [name]) = none then
        (fs.add path.dropLast name e hdir (by simp [hfree]), none)
      else (fs, some .alreadyExists)
    else (fs, some (fs.missing path.dropLast))

/-- What is written to a device is not kept in the tree. -/
def write (fs : FileTree) (path : FilePath) (content : List UInt8) : FileTree × Option IoError :=
  match fs.entry path with
  | none => fs.create path (.file content)
  | some (.file _) =>
    match path.getLast? with
    | none => (fs, some .isADirectory)
    | some name =>
      if hdir : fs.entry path.dropLast = some .directory then
        if hplace : fs.entry (path.dropLast ++ [name]) ≠ some .directory then
          (fs.add path.dropLast name (.file content) hdir hplace, none)
        else (fs, some .isADirectory)
      else (fs, some (fs.missing path.dropLast))
  | some .directory => (fs, some .isADirectory)
  | some _ => (fs, none)

/-- The tree with what is at and below a path replaced. -/
def graft (entry : FilePath → Option Entry) (dest : FilePath)
    (below : FilePath → Option Entry) (path : FilePath) : Option Entry :=
  if dest <+: path then below (path.drop dest.length) else entry path

theorem graft_append (entry : FilePath → Option Entry) (dest : FilePath)
    (below : FilePath → Option Entry) (p : FilePath) :
    graft entry dest below (dest ++ p) = below p := by
  rw [graft, if_pos (List.prefix_append dest p), List.drop_left]

theorem graft_self (entry : FilePath → Option Entry) (dest : FilePath)
    (below : FilePath → Option Entry) : graft entry dest below dest = below [] := by
  rw [graft, if_pos (List.prefix_refl dest), List.drop_length]

theorem graft_cons (entry : FilePath → Option Entry) (dest : FilePath) (name : String)
    (below : FilePath → Option Entry) (p : FilePath) :
    graft entry (dest ++ [name]) below (dest ++ name :: p) = below p := by
  have hpath : dest ++ name :: p = dest ++ [name] ++ p := List.append_cons ..
  rw [hpath, graft_append]

theorem graft_of_outside {entry : FilePath → Option Entry} {dest : FilePath}
    {below : FilePath → Option Entry} (h : ¬ dest <+: path) :
    graft entry dest below path = entry path :=
  if_neg h

theorem graft_graft (entry : FilePath → Option Entry) (dest : FilePath)
    (below below' : FilePath → Option Entry) :
    graft (graft entry dest below) dest below' = graft entry dest below' := by
  funext path
  by_cases hwithin : dest <+: path
  · simp only [graft, if_pos hwithin]
  · rw [graft_of_outside hwithin, graft_of_outside hwithin, graft_of_outside hwithin]

/-- What is told of every path below and of every other path is told of the tree. -/
theorem eq_graft {entry entry' : FilePath → Option Entry} {dest : FilePath}
    {below : FilePath → Option Entry} (hbelow : ∀ p, entry' (dest ++ p) = below p)
    (hapart : ∀ path, ¬ dest <+: path → entry' path = entry path) :
    entry' = graft entry dest below := by
  funext path
  by_cases hwithin : dest <+: path
  · obtain ⟨p, rfl⟩ := hwithin
    rw [graft_append, hbelow]
  · rw [graft_of_outside hwithin, hapart path hwithin]

theorem entry_append_of_none (h : fs.entry path = none) (p : FilePath) :
    fs.entry (path ++ p) = none := by
  induction p using List.reverseRecOn with
  | nil => rwa [List.append_nil]
  | append_singleton p name ih =>
    rw [← List.append_assoc]
    by_contra hsome
    have hdir := fs.parent _ _ (Option.isSome_iff_ne_none.mpr hsome)
    rw [ih] at hdir
    exact absurd hdir (by simp)

/-- Below what is no directory there is nothing. -/
theorem entry_append_cons_of_ne (h : fs.entry path ≠ some .directory) (name : String)
    (p : FilePath) : fs.entry (path ++ name :: p) = none := by
  rw [List.append_cons]
  apply entry_append_of_none
  by_contra hsome
  exact h (fs.parent _ _ (Option.isSome_iff_ne_none.mpr hsome))

theorem entry_add (hdir : fs.entry dir = some .directory)
    (hplace : fs.entry (dir ++ [name]) ≠ some .directory) :
    (fs.add dir name e hdir hplace).entry = Function.update fs.entry (dir ++ [name]) (some e) :=
  rfl

/-- An entry that is made in a free place has nothing below it. -/
theorem entry_add_of_free (hdir : fs.entry dir = some .directory)
    (hfree : fs.entry (dir ++ [name]) = none) :
    (fs.add dir name e hdir (by simp [hfree])).entry =
      graft fs.entry (dir ++ [name]) fun p => if p = [] then some e else none := by
  apply eq_graft
  · intro p
    rcases p with _ | ⟨first, p⟩
    · rw [entry_add, List.append_nil, Function.update_self, if_pos rfl]
    · rw [entry_add, Function.update_of_ne append_ne_self, entry_append_of_none hfree,
        if_neg (List.cons_ne_nil _ _)]
  · intro path' hnot
    rw [entry_add, Function.update_of_ne]
    rintro rfl
    exact hnot (List.prefix_refl _)

theorem create_of_free (hdir : fs.entry dir = some .directory)
    (hfree : fs.entry (dir ++ [name]) = none) :
    fs.create (dir ++ [name]) e = (fs.add dir name e hdir (by simp [hfree]), none) := by
  simp [create, hdir, hfree]

/-- Nothing is made where something stands already or where there is no directory. -/
theorem create_fails (h : ¬ (fs.entry dir = some .directory ∧ fs.entry (dir ++ [name]) = none)) :
    ∃ error, fs.create (dir ++ [name]) e = (fs, some error) := by
  by_cases hdir : fs.entry dir = some .directory
  · have htaken : fs.entry (dir ++ [name]) ≠ none := fun hfree => h ⟨hdir, hfree⟩
    exact ⟨.alreadyExists, by simp [create, hdir, htaken]⟩
  · exact ⟨fs.missing dir, by simp [create, hdir]⟩

theorem create_existing (h : fs.entry path = some .directory) :
    fs.create path e = (fs, some .alreadyExists) := by
  rcases List.eq_nil_or_concat path with rfl | ⟨dir, name, rfl⟩
  · rfl
  · rw [List.concat_eq_append] at h ⊢
    have hdir := fs.parent dir name (Option.isSome_of_eq_some h)
    simp [create, hdir, h]

theorem write_of_free {content : List UInt8} (hdir : fs.entry dir = some .directory)
    (hfree : fs.entry (dir ++ [name]) = none) :
    fs.write (dir ++ [name]) content =
      (fs.add dir name (.file content) hdir (by simp [hfree]), none) := by
  simp only [write, hfree, create_of_free hdir hfree]

end FileTree

end Workflows.FileSystem
