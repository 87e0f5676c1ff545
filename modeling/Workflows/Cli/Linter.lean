import Workflows.Cli.HelmIntegration
import Workflows.Cli.LabelRules
import Workflows.GraphProxy.Logs

/-!
# Linting from the command line

`lint` and `lint-config` gather the errors of manifests and of rendered charts and exit with a
status. What cannot be listed, what `helm` and `argo` say by their exit status alone, and in `lint`
every error that is not about one file, is not among them.
-/

namespace Workflows.Cli

open Separator Utf8 GraphProxy

universe u

section Model

structure LintResult where
  name : String
  errors : List String
  deriving DecidableEq

inductive ManifestType where
  | manifest
  | helm
  deriving DecidableEq

structure LintArgs where
  manifestType : ManifestType
  all : Bool
  fileName : Path

structure Config where
  manifests : Option (List Path)
  charts : Option (List Path)

inductive Command where
  | lint (args : LintArgs)
  | lintConfig (configFile : Path)

/-- The readers of `serde_yaml`. -/
structure Readers where
  value : String → Except String Yaml
  config : String → Except String Config

variable {σ : Type u} (readers : Readers) (files : Files σ) (s : σ)

def getManifest (target : Path) : Except String Yaml :=
  match files.readToString s target with
  | .error err => .error ("Couldn't read file " ++ target.text ++ ": " ++ err)
  | .ok yaml =>
    (readers.value yaml).mapError fun e => "Could not parse manifest to string: " ++ e

def templateName (yaml : Yaml) : Option String :=
  ((yaml.index "metadata").index "name").asStr.or
    ((yaml.index "metadata").index "generateName").asStr

def getTemplateName (path : Path) : Except String String :=
  (getManifest readers files s path).bind fun yaml =>
    match templateName yaml with
    | none => .error "Template has no name"
    | some name => .ok name

/-- What stands behind the first place of a word. -/
def afterWord (word : List Char) : List Char → Option (List Char)
  | [] => none
  | c :: cs =>
    if word.isPrefixOf (c :: cs) then some ((c :: cs).drop word.length) else afterWord word cs

def trimStart (cs : List Char) : List Char := cs.dropWhile isWhitespace

def behind (word : String) (msg : List Char) : List Char :=
  match afterWord word.toList msg with
  | some remainder => trimStart remainder
  | none => msg

/-- The lines that the command prints, empty ones apart. -/
def outputLines (output : Output) : List (List Char) :=
  (lines (fromUtf8Lossy output.stdout ++ '\n' :: fromUtf8Lossy output.stderr)).filter (· ≠ [])

def missingTemplate : List Char := "couldn't find cluster workflow template".toList

def argoErrors (output : Output) : List String :=
  (((outputLines output).filter fun msg => ¬missingTemplate <:+: msg).filter fun msg =>
    ¬"no linting errors".toList <:+: msg).map fun msg =>
      String.ofList ((behind ":" (behind "msg=failed to parse YAML from file" msg)).filter (· ≠ '"'))

def runArgo (target : Path) : Except String Output :=
  files.output s "argo" ["lint", target.text, "--offline", "--output", "simple"]

def argoLint (target : Path) : Except String (List String) :=
  match runArgo files s target with
  | .error e => .error ("Failed to run Argo CLI: " ++ e)
  | .ok output => .ok (argoErrors output)

def lintTemplate (target : Path) : Except String (List String) :=
  (argoLint files s target).bind fun errors =>
    ((getManifest readers files s target).bind lintLabels).map (errors ++ ·)

def lintPath (target : Path) : Except String LintResult :=
  (getTemplateName readers files s target).bind fun name =>
    (lintTemplate readers files s target).map fun errors => { name, errors }

def lintResult (path : Path) : LintResult :=
  match lintPath readers files s path with
  | .ok result => result
  | .error error => { name := path.text, errors := [error] }

def lintFromManifest (target : Path) (all : Bool) : Except String (List LintResult) :=
  if all then
    match files.readDir s target with
    | .ok entries =>
      .ok ((entries.filterMap Except.toOption).map fun name =>
        lintResult readers files s (target.joinName name))
    | .error e => .error ("Error reading directory " ++ target.text ++ ": " ++ e)
  else .ok [lintResult readers files s target]

def removeEntry (path : Path) (s : σ) : Except String String → Except String σ
  | .error e => .error e
  | .ok name =>
    let entryPath := path.joinName name
    if files.isFile s entryPath then files.removeFile s entryPath
    else if files.isDir s entryPath then files.removeDirAll s entryPath
    else .ok s

def writeContents (path : Path) : Nat → List String → σ → Except String σ
  | _, [], s => .ok s
  | i, content :: contents, s =>
    let filePath := path.joinName ("workflow_" ++ toString i ++ ".yaml")
    (files.create s filePath).bind fun s =>
      (files.writeAll s filePath content).bind (writeContents path (i + 1) contents)

def writeToCleanFolder (path : Path) (contents : List String) : Except String σ :=
  (if files.exists s path then .ok s else files.createDirAll s path).bind fun s =>
    (files.readDir s path).bind fun entries =>
      (entries.foldlM (removeEntry files path) s).bind (writeContents files path 0 contents)

def tmpDir : Path := ⟨["", "tmp", "argo-lint"]⟩

/-- The documents in the folder from which they are linted, and the files after that. -/
def renderToFolder (target : Path) (all : Bool) : Except String σ :=
  (helmToManifest files s target all).bind fun manifests =>
    (writeToCleanFolder files s tmpDir manifests).mapError fun _ =>
      "Couldn't create temporary file for helm templates."

def lintFromHelm (target : Path) (all : Bool) : Except String (List LintResult × σ) :=
  (renderToFolder files s target all).bind fun s' =>
    (lintFromManifest readers files s' tmpDir true).map (·, s')

/-- `print_and_exit` -/
def resultStatus (results : List LintResult) : Nat :=
  if results.any fun result => result.errors ≠ [] then 1 else 0

def lint (args : LintArgs) : Nat :=
  let results :=
    match args.manifestType with
    | .manifest => lintFromManifest readers files s args.fileName args.all
    | .helm => (lintFromHelm readers files s args.fileName args.all).map Prod.fst
  match results with
  | .ok results => resultStatus results
  -- printed only, and the process ends as one that succeeds
  | .error _ => 0

def lintManifests : List Path → Except String (List LintResult)
  | [] => .ok []
  | manifest :: manifests =>
    (lintFromManifest readers files s manifest true).bind fun results =>
      (lintManifests manifests).map (results ++ ·)

def lintCharts : σ → List Path → Except String (List LintResult)
  | _, [] => .ok []
  | s, chart :: charts =>
    (lintFromHelm readers files s chart true).bind fun (results, s') =>
      (lintCharts s' charts).map (results ++ ·)

def parseConfig (configPath : Path) : Except String Config :=
  (files.readToString s configPath).bind readers.config

def lintFromConfig (configPath : Path) : Nat :=
  match parseConfig readers files s configPath with
  | .error _ => 1
  | .ok config =>
    let lintResults :=
      (lintManifests readers files s (config.manifests.getD [])).bind fun results =>
        (lintCharts readers files s (config.charts.getD [])).map (results ++ ·)
    match lintResults with
    | .error _ => 1
    | .ok results => resultStatus results

def isInstalled (command : String) : Bool :=
  match files.output s "which" [command] with
  | .ok output => output.success
  | .error _ => false

def ensureCli : Bool := isInstalled files s "helm" && isInstalled files s "argo"

/-- The status with which the process exits. -/
def exitStatus : Command → Nat
  | .lint args => if ensureCli files s then lint readers files s args else 1
  | .lintConfig configFile =>
    if ensureCli files s then lintFromConfig readers files s configFile else 1

end Model

section Linted

variable {σ : Type u} (readers : Readers) (files : Files σ) (s : σ)

/-- It succeeds, or all that it complains about are cluster workflow templates. -/
def ArgoSucceeded (output : Output) : Prop :=
  output.success = true ∨ outputLines output ≠ [] ∧
    ∀ line ∈ outputLines output, missingTemplate <:+: line

/-- The file is a manifest with a name, and its metadata meets the rules. -/
def IsManifest (path : Path) : Prop :=
  ∃ manifest, getManifest readers files s path = .ok manifest ∧
    (templateName manifest).isSome ∧ RulesHold manifest

def FileLinted (path : Path) : Prop :=
  IsManifest readers files s path ∧ ∃ output, runArgo files s path = .ok output ∧
    ArgoSucceeded output

def DirLinted (dir : Path) : Prop :=
  ∃ entries, files.readDir s dir = .ok entries ∧
    ∀ entry ∈ entries, ∃ name, entry = .ok name ∧ FileLinted readers files s (dir.joinName name)

/-- The chart and the template of it that `helm` is run on. -/
def helmCall (target : Path) (all : Bool) : Option (Path × Option String) :=
  if all then some (relativeToHere target, none)
  else (relativeToHere target).fileName.bind fun template =>
    (findChartRoot files s (relativeToHere target)).map fun chartRoot => (chartRoot, some template)

/-- The path of a template as `helm` is told of it. -/
def selected (chartRoot : Path) : Option String → Path
  | none => chartRoot
  | some template => chartRoot.join ((Path.mk ["templates"]).joinName template)

/-- Paths are the same when their components are. -/
def Path.components (path : Path) : List String :=
  match path.pieces with
  | [] => []
  | first :: rest => first :: rest.filter fun piece => piece ≠ "" ∧ piece ≠ "."

/-- `helm` is run on the target itself and succeeds. -/
def HelmSucceeded (target : Path) (all : Bool) : Prop :=
  ∃ chartRoot template output, helmCall files s target all = some (chartRoot, template) ∧
    (selected chartRoot template).components = (relativeToHere target).components ∧
    files.output s "helm" (helmArgs chartRoot template) = .ok output ∧ output.success = true

/-- A chart is rendered, and all that it is rendered to is linted. -/
def ChartLinted (target : Path) (all : Bool) (s' : σ) : Prop :=
  HelmSucceeded files s target all ∧ renderToFolder files s target all = .ok s' ∧
    DirLinted readers files s' tmpDir

def ChartsLinted : σ → List Path → Prop
  | _, [] => True
  | s, chart :: charts => ∃ s', ChartLinted readers files s chart true s' ∧ ChartsLinted s' charts

/-- Every target of a command is read, rendered and linted without a complaint. -/
def Linted : Command → Prop
  | .lint ⟨.manifest, false, fileName⟩ => FileLinted readers files s fileName
  | .lint ⟨.manifest, true, fileName⟩ => DirLinted readers files s fileName
  | .lint ⟨.helm, all, fileName⟩ => ∃ s', ChartLinted readers files s fileName all s'
  | .lintConfig configFile => ∃ config, parseConfig readers files s configFile = .ok config ∧
    (∀ manifest ∈ config.manifests.getD [], DirLinted readers files s manifest) ∧
    ChartsLinted readers files s (config.charts.getD [])

end Linted

section Reported

variable {σ : Type u} (readers : Readers) (files : Files σ) (s : σ)

/-- Nothing is reported of the file. -/
def FileQuiet (path : Path) : Prop :=
  IsManifest readers files s path ∧ ∃ output, runArgo files s path = .ok output ∧
    argoErrors output = []

def DirQuiet (dir : Path) : Prop :=
  ∃ entries, files.readDir s dir = .ok entries ∧
    ∀ name, .ok name ∈ entries → FileQuiet readers files s (dir.joinName name)

def ChartQuiet (target : Path) (all : Bool) (s' : σ) : Prop :=
  renderToFolder files s target all = .ok s' ∧ DirQuiet readers files s' tmpDir

def ChartsQuiet : σ → List Path → Prop
  | _, [] => True
  | s, chart :: charts => ∃ s', ChartQuiet readers files s chart true s' ∧ ChartsQuiet s' charts

end Reported

section Kept

variable {σ : Type u} (readers : Readers) (files : Files σ) (s : σ)

/-- `argo` has no status of failure that its lines do not account for. -/
def ArgoExplained (path : Path) : Prop :=
  ∀ output, runArgo files s path = .ok output → ArgoSucceeded output

def DirKept (dir : Path) : Prop :=
  ∀ entries, files.readDir s dir = .ok entries →
    ∀ entry ∈ entries, ∃ name, entry = .ok name ∧ ArgoExplained files s (dir.joinName name)

def ChartsKept : σ → List Path → Prop
  | _, [] => True
  | s, chart :: charts => HelmSucceeded files s chart true ∧
    ∀ s', renderToFolder files s chart true = .ok s' → DirKept files s' tmpDir ∧ ChartsKept s' charts

/-- Where nothing is reported, nothing has gone wrong that is not reported: no entry of a folder
that cannot be read, no status of `helm` or `argo`, no other template, and in `lint` no error that
ends it. -/
def NothingDropped : Command → Prop
  | .lint ⟨.manifest, false, fileName⟩ =>
    FileQuiet readers files s fileName → ArgoExplained files s fileName
  | .lint ⟨.manifest, true, fileName⟩ =>
    (files.readDir s fileName).isOk = true ∧
      (DirQuiet readers files s fileName → DirKept files s fileName)
  | .lint ⟨.helm, all, fileName⟩ =>
    ∃ s', renderToFolder files s fileName all = .ok s' ∧ (files.readDir s' tmpDir).isOk = true ∧
      (DirQuiet readers files s' tmpDir →
        HelmSucceeded files s fileName all ∧ DirKept files s' tmpDir)
  | .lintConfig configFile => ∀ config, parseConfig readers files s configFile = .ok config →
    (∀ manifest ∈ config.manifests.getD [], DirQuiet readers files s manifest) →
    ChartsQuiet readers files s (config.charts.getD []) →
    (∀ manifest ∈ config.manifests.getD [], DirKept files s manifest) ∧
      ChartsKept files s (config.charts.getD [])

variable {readers : Readers} {files : Files σ} {s s' : σ} {path dir target : Path} {all : Bool}

theorem getTemplateName_eq_ok_iff {name : String} :
    getTemplateName readers files s path = .ok name ↔
      ∃ manifest, getManifest readers files s path = .ok manifest ∧
        templateName manifest = some name := by
  rw [getTemplateName]
  cases getManifest readers files s path with
  | error e => exact iff_of_false nofun (by rintro ⟨manifest, hmanifest, -⟩; cases hmanifest)
  | ok manifest =>
    rw [Except.bind]
    cases hname : templateName manifest with
    | none => simp [hname]
    | some found => simp [hname]

theorem lintTemplate_eq_ok_nil_iff : lintTemplate readers files s path = .ok [] ↔
    (∃ output, runArgo files s path = .ok output ∧ argoErrors output = []) ∧
      ∃ manifest, getManifest readers files s path = .ok manifest ∧ RulesHold manifest := by
  rw [lintTemplate, argoLint]
  cases runArgo files s path with
  | error e => simp [Except.bind]
  | ok output =>
    cases getManifest readers files s path with
    | error e => simp [Except.bind, Except.map]
    | ok manifest =>
      simp only [Except.bind, Except.ok.injEq, exists_eq_left', ← lintLabels_eq_ok_nil_iff]
      cases lintLabels manifest with
      | error e => simp [Except.map]
      | ok errors => simp [Except.map]

theorem errors_lintResult_eq_nil_iff :
    (lintResult readers files s path).errors = [] ↔ FileQuiet readers files s path := by
  have hresult : (lintResult readers files s path).errors = [] ↔
      (∃ name, getTemplateName readers files s path = .ok name) ∧
        lintTemplate readers files s path = .ok [] := by
    rw [lintResult, lintPath]
    cases getTemplateName readers files s path with
    | error e => simp [Except.bind]
    | ok name =>
      cases lintTemplate readers files s path with
      | error e => simp [Except.bind, Except.map]
      | ok errors => simp [Except.bind, Except.map]
  rw [hresult, lintTemplate_eq_ok_nil_iff]
  constructor
  · rintro ⟨⟨name, hname⟩, hargo, manifest, hmanifest, hrules⟩
    obtain ⟨manifest', hmanifest', hsome⟩ := getTemplateName_eq_ok_iff.mp hname
    obtain rfl := Except.ok.inj (hmanifest.symm.trans hmanifest')
    exact ⟨⟨manifest, hmanifest, by rw [hsome]; rfl, hrules⟩, hargo⟩
  · rintro ⟨⟨manifest, hmanifest, hsome, hrules⟩, hargo⟩
    obtain ⟨name, hname⟩ := Option.isSome_iff_exists.mp hsome
    exact ⟨⟨name, getTemplateName_eq_ok_iff.mpr ⟨manifest, hmanifest, hname⟩⟩, hargo, manifest,
      hmanifest, hrules⟩

theorem resultStatus_eq_zero_iff {results : List LintResult} :
    resultStatus results = 0 ↔ ∀ result ∈ results, result.errors = [] := by
  rw [resultStatus]
  split_ifs with hany
  · obtain ⟨result, hresult, hne⟩ := List.any_eq_true.mp hany
    exact iff_of_false nofun fun hall => of_decide_eq_true hne (hall result hresult)
  · refine iff_of_true rfl fun result hresult => ?_
    by_contra hne
    exact hany (List.any_eq_true.mpr ⟨result, hresult, decide_eq_true hne⟩)

/-- A folder that can be listed gives results, and they are all clean when it is quiet. -/
theorem lintFromManifest_dir :
    (∃ results, lintFromManifest readers files s dir true = .ok results ∧
      ∀ result ∈ results, result.errors = []) ↔ DirQuiet readers files s dir := by
  rw [lintFromManifest, if_pos rfl, DirQuiet]
  cases files.readDir s dir with
  | error e => simp
  | ok entries =>
    simp only [Except.ok.injEq, exists_eq_left', List.forall_mem_map, List.mem_filterMap,
      errors_lintResult_eq_nil_iff]
    constructor
    · intro hall name hname
      exact hall name ⟨.ok name, hname, rfl⟩
    · rintro hall name ⟨entry, hentry, hok⟩
      cases entry with
      | error e => cases hok
      | ok found =>
        obtain rfl := Option.some.inj hok
        exact hall found hentry

theorem lintFromHelm_chart :
    (∃ results, lintFromHelm readers files s target all = .ok (results, s') ∧
      ∀ result ∈ results, result.errors = []) ↔ ChartQuiet readers files s target all s' := by
  rw [ChartQuiet, lintFromHelm]
  cases renderToFolder files s target all with
  | error e => simp [Except.bind]
  | ok s₁ =>
    rw [← lintFromManifest_dir, Except.bind]
    cases hlint : lintFromManifest readers files s₁ tmpDir true with
    | error e =>
      simp only [Except.map, reduceCtorEq, false_and, exists_false, false_iff, not_and,
        Except.ok.injEq]
      rintro rfl ⟨results, hresults, -⟩
      cases hlint.symm.trans hresults
    | ok results =>
      simp only [Except.map, Except.ok.injEq, Prod.mk.injEq]
      constructor
      · rintro ⟨_, ⟨rfl, rfl⟩, hclean⟩
        exact ⟨rfl, results, hlint, hclean⟩
      · rintro ⟨rfl, found, hfound, hclean⟩
        exact ⟨found, ⟨Except.ok.inj (hlint.symm.trans hfound), rfl⟩, hclean⟩

theorem lintManifests_dirs {manifests : List Path} :
    (∃ results, lintManifests readers files s manifests = .ok results ∧
      ∀ result ∈ results, result.errors = []) ↔
    ∀ manifest ∈ manifests, DirQuiet readers files s manifest := by
  induction manifests with
  | nil => simp [lintManifests]
  | cons manifest manifests ih =>
    rw [List.forall_mem_cons, ← ih, ← lintFromManifest_dir, lintManifests]
    cases lintFromManifest readers files s manifest true with
    | error e => simp [Except.bind]
    | ok results =>
      cases lintManifests readers files s manifests with
      | error e => simp [Except.bind, Except.map]
      | ok more => simp [Except.bind, Except.map, or_imp, forall_and]

theorem lintCharts_charts {charts : List Path} :
    (∃ results, lintCharts readers files s charts = .ok results ∧
      ∀ result ∈ results, result.errors = []) ↔ ChartsQuiet readers files s charts := by
  induction charts generalizing s with
  | nil => simp [lintCharts, ChartsQuiet]
  | cons chart charts ih =>
    simp only [ChartsQuiet, ← ih, ← lintFromHelm_chart, lintCharts]
    cases lintFromHelm readers files s chart true with
    | error e => simp [Except.bind]
    | ok found =>
      obtain ⟨results, s'⟩ := found
      cases hmore : lintCharts readers files s' charts with
      | error e =>
        simp only [Except.bind, hmore, Except.map, reduceCtorEq, false_and, exists_false,
          Except.ok.injEq, Prod.mk.injEq, false_iff, not_exists, not_and]
        rintro s₁ ⟨_, ⟨-, rfl⟩, -⟩ more heq
        cases hmore.symm.trans heq
      | ok more =>
        simp only [Except.bind, hmore, Except.map, Except.ok.injEq, exists_eq_left',
          Prod.mk.injEq, List.forall_mem_append]
        constructor
        · rintro ⟨hresults, hcharts⟩
          exact ⟨s', ⟨results, ⟨rfl, rfl⟩, hresults⟩, more, hmore, hcharts⟩
        · rintro ⟨s₁, ⟨_, ⟨rfl, rfl⟩, hresults⟩, found, hfound, hcharts⟩
          obtain rfl := Except.ok.inj (hmore.symm.trans hfound)
          exact ⟨hresults, hcharts⟩

theorem FileQuiet.linted_iff (h : FileQuiet readers files s path) :
    FileLinted readers files s path ↔ ArgoExplained files s path := by
  obtain ⟨hmanifest, output, houtput, -⟩ := h
  constructor
  · rintro ⟨-, output', houtput', hsucceeded⟩ found hfound
    obtain rfl := Except.ok.inj (houtput'.symm.trans hfound)
    exact hsucceeded
  · intro hexplained
    exact ⟨hmanifest, output, houtput, hexplained output houtput⟩

theorem DirQuiet.linted_iff (h : DirQuiet readers files s dir) :
    DirLinted readers files s dir ↔ DirKept files s dir := by
  obtain ⟨entries, hentries, hquiet⟩ := h
  constructor
  · rintro ⟨entries', hentries', hlinted⟩ found hfound entry hentry
    obtain rfl := Except.ok.inj (hentries'.symm.trans hfound)
    obtain ⟨name, rfl, hfile⟩ := hlinted entry hentry
    obtain rfl := Except.ok.inj (hentries.symm.trans hentries')
    exact ⟨name, rfl, (hquiet name hentry).linted_iff.mp hfile⟩
  · intro hkept
    refine ⟨entries, hentries, fun entry hentry => ?_⟩
    obtain ⟨name, rfl, hexplained⟩ := hkept entries hentries entry hentry
    exact ⟨name, rfl, (hquiet name hentry).linted_iff.mpr hexplained⟩

theorem ChartsQuiet.linted_iff {charts : List Path} (h : ChartsQuiet readers files s charts) :
    ChartsLinted readers files s charts ↔ ChartsKept files s charts := by
  induction charts generalizing s with
  | nil => exact Iff.rfl
  | cons chart charts ih =>
    obtain ⟨s', ⟨hrender, hquiet⟩, hcharts⟩ := h
    constructor
    · rintro ⟨s₁, ⟨hhelm, hrender₁, hlinted⟩, hrest⟩
      refine ⟨hhelm, fun s₂ hrender₂ => ?_⟩
      obtain rfl := Except.ok.inj (hrender.symm.trans hrender₁)
      obtain rfl := Except.ok.inj (hrender.symm.trans hrender₂)
      exact ⟨hquiet.linted_iff.mp hlinted, (ih hcharts).mp hrest⟩
    · rintro ⟨hhelm, hkept⟩
      obtain ⟨hdir, hrest⟩ := hkept s' hrender
      exact ⟨s', ⟨hhelm, hrender, hquiet.linted_iff.mpr hdir⟩, (ih hcharts).mpr hrest⟩

/-- What `lint` makes of a folder: an error that ends it counts as success. -/
theorem status_dir (dir : Path) :
    (∃ e, files.readDir s dir = .error e ∧
      ∃ e, lintFromManifest readers files s dir true = .error e) ∨
    ∃ results, (files.readDir s dir).isOk = true ∧
      lintFromManifest readers files s dir true = .ok results ∧
      (resultStatus results = 0 ↔ DirQuiet readers files s dir) := by
  cases hlist : files.readDir s dir with
  | error e =>
    refine .inl ⟨e, rfl, "Error reading directory " ++ dir.text ++ ": " ++ e, ?_⟩
    rw [lintFromManifest, if_pos rfl, hlist]
  | ok entries =>
    refine .inr ⟨_, rfl, by rw [lintFromManifest, if_pos rfl, hlist], ?_⟩
    rw [resultStatus_eq_zero_iff, ← lintFromManifest_dir, lintFromManifest, if_pos rfl, hlist]
    simp only [Except.ok.injEq, exists_eq_left']

theorem lint_manifest_iff {fileName : Path} :
    (lint readers files s ⟨.manifest, all, fileName⟩ = 0 →
      Linted readers files s (.lint ⟨.manifest, all, fileName⟩)) ↔
    NothingDropped readers files s (.lint ⟨.manifest, all, fileName⟩) := by
  cases all with
  | false =>
    have hstatus : lint readers files s ⟨.manifest, false, fileName⟩ = 0 ↔
        FileQuiet readers files s fileName := by
      rw [← errors_lintResult_eq_nil_iff]
      exact resultStatus_eq_zero_iff.trans (by simp)
    rw [hstatus, Linted, NothingDropped]
    exact forall_congr' FileQuiet.linted_iff
  | true =>
    rw [Linted, NothingDropped, lint]
    dsimp only
    have hcases := @status_dir _ readers files s fileName
    obtain ⟨e, hlist, e', hlint⟩ | ⟨results, hlist, hlint, hstatus⟩ := hcases
    · rw [hlint, hlist]
      refine iff_of_false (fun h => ?_) (fun h => by cases h.1)
      obtain ⟨entries, hentries, -⟩ := h rfl
      cases hlist.symm.trans hentries
    · rw [hlint, and_iff_right hlist]
      dsimp only
      rw [hstatus]
      exact forall_congr' DirQuiet.linted_iff

theorem lint_helm_iff {fileName : Path} :
    (lint readers files s ⟨.helm, all, fileName⟩ = 0 →
      Linted readers files s (.lint ⟨.helm, all, fileName⟩)) ↔
    NothingDropped readers files s (.lint ⟨.helm, all, fileName⟩) := by
  rw [Linted, NothingDropped, lint, lintFromHelm]
  dsimp only
  cases hrender : renderToFolder files s fileName all with
  | error e =>
    refine iff_of_false (fun h => ?_) (by simp)
    obtain ⟨s', -, hrender', -⟩ := h rfl
    cases hrender.symm.trans hrender'
  | ok s' =>
    have hchart : (∃ s'', ChartLinted readers files s fileName all s'') ↔
        HelmSucceeded files s fileName all ∧ DirLinted readers files s' tmpDir := by
      simp only [ChartLinted, hrender, Except.ok.injEq]
      constructor
      · rintro ⟨_, hhelm, rfl, hdir⟩
        exact ⟨hhelm, hdir⟩
      · rintro ⟨hhelm, hdir⟩
        exact ⟨s', hhelm, rfl, hdir⟩
    simp only [hchart, Except.ok.injEq, exists_eq_left', Except.bind]
    have hcases := @status_dir _ readers files s' tmpDir
    obtain ⟨e, hlist, e', hlint⟩ | ⟨results, hlist, hlint, hstatus⟩ := hcases
    · rw [hlint, hlist]
      refine iff_of_false (fun h => ?_) (fun h => by cases h.1)
      obtain ⟨entries, hentries, -⟩ := (h rfl).2
      cases hlist.symm.trans hentries
    · rw [hlint, and_iff_right hlist]
      simp only [Except.map, hstatus]
      exact forall_congr' fun hquiet => and_congr_right fun _ => hquiet.linted_iff

theorem lintFromConfig_eq_zero_iff {configFile : Path} :
    lintFromConfig readers files s configFile = 0 ↔
      ∃ config, parseConfig readers files s configFile = .ok config ∧
        (∀ manifest ∈ config.manifests.getD [], DirQuiet readers files s manifest) ∧
        ChartsQuiet readers files s (config.charts.getD []) := by
  rw [lintFromConfig]
  cases parseConfig readers files s configFile with
  | error e => simp
  | ok config =>
    simp only [Except.ok.injEq, exists_eq_left', ← lintManifests_dirs, ← lintCharts_charts]
    cases lintManifests readers files s (config.manifests.getD []) with
    | error e => simp [Except.bind]
    | ok results =>
      cases lintCharts readers files s (config.charts.getD []) with
      | error e => simp [Except.bind, Except.map]
      | ok more => simp [Except.bind, Except.map, resultStatus_eq_zero_iff, or_imp, forall_and]

end Kept

end Workflows.Cli
