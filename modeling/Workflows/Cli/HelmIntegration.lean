import Workflows.Foundations.Separator
import Workflows.Foundations.Utf8

/-!
# Rendered Helm templates

`helm_to_manifest` runs `helm template` on a chart, or on one template of it, and takes the output
apart into documents at every `---`, wherever it stands.
-/

namespace Workflows.Cli

open Separator Utf8

universe u

section Paths

/-- A path by what stands between its separators: the first piece of an absolute one is empty, and
so is the last of one that ends in a separator. -/
structure Path where
  pieces : List String
  deriving DecidableEq

namespace Path

def text (path : Path) : String := "/".intercalate path.pieces

def isAbsolute (path : Path) : Bool := path.pieces.head? = some "" && 1 < path.pieces.length

def join (path other : Path) : Path :=
  if other.isAbsolute then other
  else if path.pieces.getLast? = some "" then ⟨path.pieces.dropLast ++ other.pieces⟩
  else ⟨path.pieces ++ other.pieces⟩

def joinName (path : Path) (name : String) : Path := path.join ⟨[name]⟩

/-- Separators and dots at the end do not count. -/
def trimmed (path : Path) : List String :=
  match path.pieces with
  | [] => []
  | first :: rest => first :: rest.rdropWhile fun piece => piece = "" ∨ piece = "."

def fileName (path : Path) : Option String :=
  match path.trimmed with
  | [] => none
  | [only] => if only = "" ∨ only = "." ∨ only = ".." then none else some only
  | pieces => pieces.getLast?.filter (· ≠ "..")

def parent (path : Path) : Option Path :=
  match path.trimmed with
  | [] => none
  | [only] => if only = "" then none else some ⟨[""]⟩
  | pieces =>
    let above := trimmed ⟨pieces.dropLast⟩
    some ⟨if above = [""] then ["", ""] else above⟩

def ancestorsWithin : Nat → Path → List Path
  | 0, path => [path]
  | fuel + 1, path =>
    match path.parent with
    | none => [path]
    | some above => path :: ancestorsWithin fuel above

/-- Each parent has a piece less, but for the empty path above a single one. -/
def ancestors (path : Path) : List Path := ancestorsWithin (path.pieces.length + 1) path

example : (Path.mk ["", "a", "b", ""]).ancestors.map text = ["/a/b/", "/a", "/"] := by
  decide +kernel

example : (Path.mk [".", "c", ".", "x.yaml"]).ancestors.map text =
    ["./c/./x.yaml", "./c", ".", ""] := by
  decide +kernel

end Path

end Paths

section Helm

structure Output where
  success : Bool
  stdout : List UInt8
  stderr : List UInt8

/-- The answers of the file system and of the commands, and how the files change. -/
structure Files (σ : Type u) where
  readDir : σ → Path → Except String (List (Except String String))
  readToString : σ → Path → Except String String
  «exists» : σ → Path → Bool
  isFile : σ → Path → Bool
  isDir : σ → Path → Bool
  createDirAll : σ → Path → Except String σ
  removeFile : σ → Path → Except String σ
  removeDirAll : σ → Path → Except String σ
  create : σ → Path → Except String σ
  writeAll : σ → Path → String → Except String σ
  output : σ → String → List String → Except String Output

variable {σ : Type u} (files : Files σ) (s : σ)

def helmArgs (target : Path) (template : Option String) : List String :=
  ["template", target.text] ++
    match template with
    | none => []
    | some template => ["-s", ((Path.mk ["templates"]).joinName template).text]

def dashes : List Char := "---".toList

def splitDocuments (stdout : List UInt8) : List String :=
  ((splitWord dashes (fromUtf8Lossy stdout)).filter (· ≠ [])).map String.ofList

def helmTemplate (target : Path) (template : Option String) : Except String (List String) :=
  match files.output s "helm" (helmArgs target template) with
  | .error _ => .error "Failed to run 'helm'. Is it installed?"
  | .ok output => .ok (splitDocuments output.stdout)

def fetchAllHelmManifests (target : Path) (template : Option String) :
    Except String (List String) :=
  match files.readDir s target with
  | .error _ =>
    .error ("Failed to build helm templates. Does " ++ target.text ++ " contain chart.yaml?")
  | .ok entries =>
    if entries.any fun | .ok name => name = "Chart.yaml" | .error _ => false then
      helmTemplate files s target template
    else .error ("Could not find 'Chart.yaml' in " ++ target.text ++ " ")

def relativeToHere (target : Path) : Path :=
  if target.isAbsolute then target else (Path.mk [".", ""]).join target

def findChartRoot (target : Path) : Option Path :=
  target.ancestors.find? fun path => files.exists s (path.joinName "Chart.yaml")

def nonemptyManifests (target : Path) (all : Bool) (manifests : List String) :
    Except String (List String) :=
  if manifests = [] then
    .error (if all then "Found no workflows in " ++ target.text
      else target.text ++ " is not a valid workflow/template")
  else .ok manifests

def helmToManifest (target : Path) (all : Bool) : Except String (List String) :=
  let target := relativeToHere target
  if all then (fetchAllHelmManifests files s target none).bind (nonemptyManifests target all)
  else
    match target.fileName with
    | none => .error (target.text ++ " is a directory. Please use the --all flag.")
    | some template =>
      match findChartRoot files s target with
      | none => .error "Could not find a parent directory containing Chart.yaml"
      | some chartRoot =>
        (fetchAllHelmManifests files s chartRoot (some template)).bind
          (nonemptyManifests target all)

end Helm

section Documents

/-- A document of a chart, with the path that the comment before it names. -/
structure HelmDocument where
  source : String
  content : String
  deriving DecidableEq

namespace HelmDocument

def commentTag : List Char := "# Source:".toList

def middle (doc : HelmDocument) : List Char :=
  commentTag ++ ' ' :: (doc.source.toList ++ '\n' :: doc.content.toList)

/-- The rest of the line `---`, the line of the comment and the document. -/
def body (doc : HelmDocument) : List Char := '\n' :: (doc.middle ++ ['\n'])

def trimBreaks (cs : List Char) : List Char :=
  (cs.dropWhile (· = '\n')).rdropWhile (· = '\n')

/-- The string holds the document, but for the comment and the line breaks around it. -/
def IsIn (doc : HelmDocument) (s : String) : Prop :=
  ∃ front back, (∀ c ∈ front, c = '\n') ∧
    trimBreaks back = trimBreaks doc.content.toList ∧
    s.toList = front ++ (commentTag ++ ' ' :: (doc.source.toList ++ '\n' :: back))

theorem trimBreaks_concat (cs : List Char) : trimBreaks (cs ++ ['\n']) = trimBreaks cs := by
  rw [trimBreaks, trimBreaks, List.dropWhile_append]
  split_ifs with hempty
  · rw [List.isEmpty_iff.mp hempty]
    rfl
  · exact List.rdropWhile_concat_pos _ _ _ rfl

theorem isIn_body (doc : HelmDocument) : doc.IsIn (String.ofList doc.body) := by
  have htext : (String.ofList doc.body).toList = ['\n'] ++ (commentTag ++ ' ' ::
      (doc.source.toList ++ '\n' :: (doc.content.toList ++ ['\n']))) := by
    rw [String.toList_ofList, body, middle, List.append_assoc, List.cons_append,
      List.append_assoc]
    rfl
  exact ⟨['\n'], _, fun c hc => List.mem_singleton.mp hc, trimBreaks_concat _, htext⟩

end HelmDocument

/-- What `helm template` prints: before each document a line `---` and a comment with its path. -/
def helmOutput (docs : List HelmDocument) : List UInt8 :=
  (docs.flatMap fun doc => dashes ++ doc.body).flatMap String.utf8EncodeChar

theorem dashes_ne_nil : dashes ≠ [] := by decide +kernel

theorem newline_notMem_dashes : '\n' ∉ dashes := by decide +kernel

theorem splitWord_body_append (doc : HelmDocument) (as : List Char) :
    splitWord dashes (doc.body ++ (dashes ++ as)) =
      splitWord dashes doc.body ++ splitWord dashes as := by
  have hbody : doc.body ++ (dashes ++ as) =
      ('\n' :: doc.middle) ++ '\n' :: (dashes ++ as) := by
    rw [HelmDocument.body, List.cons_append, List.append_assoc]
    rfl
  rw [hbody]
  exact splitFrom_append_cons newline_notMem_dashes dashes_ne_nil (Nat.zero_le _)

theorem filter_splitWord_docs (docs : List HelmDocument) :
    (splitWord dashes (docs.flatMap fun doc => dashes ++ doc.body)).filter (· ≠ []) =
      docs.flatMap fun doc => (splitWord dashes doc.body).filter (· ≠ []) := by
  induction docs with
  | nil => rfl
  | cons doc docs ih =>
    rw [List.flatMap_cons, List.flatMap_cons, ← ih, List.append_assoc,
      splitWord_append dashes_ne_nil, List.filter_cons_of_neg (by simp)]
    cases docs with
    | nil => simp [splitWord, splitFrom]
    | cons next docs =>
      rw [List.flatMap_cons, List.append_assoc, splitWord_append dashes_ne_nil,
        List.filter_cons_of_neg (by simp), ← List.filter_append, ← splitWord_body_append]
theorem infix_middle_iff (doc : HelmDocument) :
    dashes <:+: doc.middle ↔ dashes <:+: doc.source.toList ∨ dashes <:+: doc.content.toList := by
  have hspace : ' ' ∉ dashes := by decide +kernel
  have htag : ¬dashes <:+: HelmDocument.commentTag := by decide +kernel
  rw [HelmDocument.middle, infix_append_cons_iff hspace, or_iff_right htag,
    infix_append_cons_iff newline_notMem_dashes]

/-- Each document gives at least one string, and one that has the separator in it gives more. -/
theorem filter_splitWord_body (doc : HelmDocument) :
    (splitWord dashes doc.body).filter (· ≠ []) = [doc.body] ∧ ¬dashes <:+: doc.middle ∨
      2 ≤ ((splitWord dashes doc.body).filter (· ≠ [])).length ∧ dashes <:+: doc.middle := by
  by_cases hmiddle : dashes <:+: doc.middle
  · exact .inr ⟨two_le_length_filter_splitWord newline_notMem_dashes dashes_ne_nil hmiddle, hmiddle⟩
  · refine .inl ⟨?_, hmiddle⟩
    have hbody : ¬dashes <:+: doc.body := by
      have hnil : ¬dashes <:+: [] := mt List.infix_nil.mp dashes_ne_nil
      have hends : dashes <:+: [] ++ '\n' :: (doc.middle ++ ['\n']) ↔ dashes <:+: doc.middle := by
        rw [infix_append_cons_iff newline_notMem_dashes,
          infix_append_cons_iff newline_notMem_dashes, or_iff_right hnil, or_iff_left hnil]
      exact mt hends.mp hmiddle
    rw [splitWord_eq_singleton hbody]
    rfl

theorem length_flatMap_ge {α β : Type} {f : α → List β} (hf : ∀ a, 1 ≤ (f a).length)
    (as : List α) : as.length ≤ (as.flatMap f).length := by
  induction as with
  | nil => exact Nat.le_refl 0
  | cons a as ih =>
    have := hf a
    rw [List.flatMap_cons, List.length_append, List.length_cons]
    omega

theorem length_eq_one_of_flatMap {α β : Type} {f : α → List β} (hf : ∀ a, 1 ≤ (f a).length)
    {as : List α} (h : (as.flatMap f).length = as.length) : ∀ a ∈ as, (f a).length = 1 := by
  induction as with
  | nil => simp
  | cons a as ih =>
    have hfirst := hf a
    have hrest := length_flatMap_ge hf as
    rw [List.flatMap_cons, List.length_append, List.length_cons] at h
    refine List.forall_mem_cons.mpr ⟨by omega, ih (by omega)⟩

/-- Every document comes back as one string exactly when none holds the separator, nor does the
path in a comment. -/
theorem helmTemplate_documents_iff {σ : Type u} {files : Files σ} {s : σ} {target : Path}
    {template : Option String} {docs : List HelmDocument} {output : Output}
    (hrun : files.output s "helm" (helmArgs target template) = .ok output)
    (hprinted : output.stdout = helmOutput docs) :
    (∃ strings, helmTemplate files s target template = .ok strings ∧
      List.Forall₂ HelmDocument.IsIn docs strings) ↔
    ∀ doc ∈ docs, ¬"---".toList <:+: doc.source.toList ∧ ¬"---".toList <:+: doc.content.toList := by
  have hpieces : ∀ doc : HelmDocument,
      1 ≤ ((splitWord dashes doc.body).filter (· ≠ [])).length := by
    intro doc
    obtain ⟨hone, -⟩ | ⟨htwo, -⟩ := filter_splitWord_body doc
    · rw [hone]
      rfl
    · exact Nat.le_of_succ_le htwo
  have hresult : helmTemplate files s target template = .ok ((docs.flatMap fun doc =>
      (splitWord dashes doc.body).filter (· ≠ [])).map String.ofList) := by
    rw [helmTemplate, hrun]
    dsimp only
    rw [hprinted, splitDocuments, helmOutput, fromUtf8Lossy_encode, filter_splitWord_docs]
  constructor
  · rintro ⟨strings, hstrings, hdocs⟩ doc hdoc
    obtain rfl := Except.ok.inj (hresult.symm.trans hstrings)
    have hlength := hdocs.length_eq.symm
    rw [List.length_map] at hlength
    have hone := length_eq_one_of_flatMap hpieces hlength doc hdoc
    obtain ⟨-, hmiddle⟩ | ⟨htwo, -⟩ := filter_splitWord_body doc
    · exact not_or.mp (mt (infix_middle_iff doc).mpr hmiddle)
    · omega
  · intro hnone
    have hone : (docs.flatMap fun doc => (splitWord dashes doc.body).filter (· ≠ [])) =
        docs.map HelmDocument.body := by
      rw [← List.flatMap_singleton' (docs.map _), List.flatMap_map]
      apply List.flatMap_congr
      intro doc hdoc
      obtain ⟨hbody, -⟩ | ⟨-, hmiddle⟩ := filter_splitWord_body doc
      · exact hbody
      · exact absurd ((infix_middle_iff doc).mp hmiddle) (not_or.mpr (hnone doc hdoc))
    refine ⟨_, hresult, ?_⟩
    rw [hone, List.map_map, List.forall₂_map_right_iff]
    exact List.forall₂_same.mpr fun doc _ => doc.isIn_body

/-- No files, and one answer to every command. -/
def answering (output : Output) : Files Unit where
  readDir _ _ := .ok []
  readToString _ path := .error path.text
  «exists» _ _ := false
  isFile _ _ := false
  isDir _ _ := false
  createDirAll _ _ := .ok ()
  removeFile _ _ := .ok ()
  removeDirAll _ _ := .ok ()
  create _ _ := .ok ()
  writeAll _ _ _ := .ok ()
  output _ _ _ := .ok output

theorem helmTemplate_documents_example :
    ∃ strings, helmTemplate (answering ⟨true, helmOutput [⟨"chart/templates/a.yaml", "kind: A"⟩,
        ⟨"chart/templates/b.yaml", "kind: B\n# --"⟩], []⟩) () ⟨["chart"]⟩ none = .ok strings ∧
      List.Forall₂ HelmDocument.IsIn [⟨"chart/templates/a.yaml", "kind: A"⟩,
        ⟨"chart/templates/b.yaml", "kind: B\n# --"⟩] strings :=
  (helmTemplate_documents_iff rfl rfl).mpr (by decide +kernel)

/-- A certificate in a block is cut at the dashes around its first line. -/
theorem certificate_is_split :
    ¬∀ (docs : List HelmDocument) (stderr : List UInt8),
      (∀ doc ∈ docs, doc.content ≠ "" ∧ dashes ∉ doc.content.toList.splitOn '\n') →
      ∃ strings, helmTemplate (answering ⟨true, helmOutput docs, stderr⟩) () ⟨["chart"]⟩ none =
        .ok strings ∧ List.Forall₂ HelmDocument.IsIn docs strings := by
  intro hclaim
  let doc : HelmDocument :=
    ⟨"chart/templates/tls.yaml", "data:\n  crt: |\n    -----BEGIN CERTIFICATE-----\n    MIIB"⟩
  obtain ⟨strings, hstrings, hdocs⟩ := hclaim [doc] [] (by decide +kernel)
  obtain rfl : splitDocuments (helmOutput [doc]) = strings := Except.ok.inj hstrings
  exact absurd hdocs.length_eq (by decide +kernel)

end Documents

end Workflows.Cli
