import Workflows.Foundations.Execution
import Workflows.Frontend.TasksFlow

/-!
# The outputs of the selected tasks

The artifacts that the page of a workflow lists can be searched, filtered by the type of the file
and sorted, and those that are images can be looked through. The list changes below all of these
when other tasks are selected, and what was chosen for the list before stays chosen.
-/

namespace Workflows.Frontend

open Execution Utf16

/-- The library that searches. It finds artifacts of the list. -/
structure Fuse where
  search : List Artifact → String → List Artifact
  mem : ∀ list query, ∀ artifact ∈ search list query, artifact ∈ list

inductive SortColumn where
  | name
  | parentTask
  deriving DecidableEq

structure ArtifactSortType where
  name : SortColumn
  order : Bool
  deriving DecidableEq

structure ImageInfo where
  src : String
  alt : String
  deriving DecidableEq

structure ScrollableImages where
  currentIndex : Nat
  numberValue : String
  deriving DecidableEq

namespace ScrollableImages

variable (wrapAround : Bool) (imageListLength : Nat) (images : ScrollableImages)

def setCurrentIndexWrapper (index : Nat) : ScrollableImages where
  currentIndex := index
  numberValue := toString (index + 1)

def handlePrev : ScrollableImages :=
  setCurrentIndexWrapper <|
    if wrapAround then (images.currentIndex + imageListLength - 1) % imageListLength
    else images.currentIndex - 1

def handleNext : ScrollableImages :=
  setCurrentIndexWrapper <|
    if wrapAround then (images.currentIndex + 1) % imageListLength
    else min (images.currentIndex + 1) (imageListLength - 1)

/-- What is entered is a position, from one on. -/
def enteredIndex (currentIndex : Nat) : Number → Nat
  | .nan => currentIndex
  | .negative _ => 0
  | .nonneg n =>
    if (imageListLength : Double) < n then imageListLength - 1
    else if n < 1 then 0
    else n.toNat - 1

def handleNumberEnter : ScrollableImages :=
  setCurrentIndexWrapper <|
    enteredIndex imageListLength images.currentIndex (parseIntAnyRadix images.numberValue.toList)

end ScrollableImages

section List

/-- From the last dot on, which is not the first letter. -/
def fileType (name : String) : String :=
  let extension := (name.toList.reverse.takeWhile (· ≠ '.')).reverse
  if extension.length + 1 < name.toList.length then String.ofList ('.' :: extension) else ""

def fileTypes (artifactList : List Artifact) : List String :=
  ((artifactList.map fun artifact => fileType artifact.name).filter (· ≠ "")).eraseDups

def filteredArtifactList (fuse : Fuse) (artifactList : List Artifact)
    (selectedFileTypes : List String) (searchQuery : String) : List Artifact :=
  let filtered :=
    if selectedFileTypes ≠ [] then
      artifactList.filter fun artifact => fileType artifact.name ∈ selectedFileTypes
    else artifactList
  if trim searchQuery.toList ≠ [] then fuse.search filtered searchQuery else filtered

def imageArtifactsInfos (artifactList : List Artifact) : List ImageInfo :=
  (artifactList.filter fun artifact => "image".toList <+: artifact.mimeType.toList).mapIdx
    fun index artifact => { src := artifact.url, alt := "Gallery Image " ++ toString (index + 1) }

/-- `<`, of strings. -/
def lessThan (a b : String) : Bool := decide (codeUnits a.toList < codeUnits b.toList)

def sortValue (column : SortColumn) (artifact : Artifact) : String :=
  match column with
  | .name => artifact.name
  | .parentTask => artifact.parentTask

def compareArtifacts (sortType : ArtifactSortType) (a b : Artifact) : Ordering :=
  let valueA := sortValue sortType.name a
  let valueB := sortValue sortType.name b
  if lessThan valueA valueB then if sortType.order then .lt else .gt
  else if lessThan valueB valueA then if sortType.order then .gt else .lt
  else .eq

def sortedArtifacts (sortType : ArtifactSortType) (artifactList : List Artifact) : List Artifact :=
  artifactList.mergeSort fun a b => compareArtifacts sortType a b != .gt

def handleSort (sortType : ArtifactSortType) (column : SortColumn) : ArtifactSortType :=
  if sortType.name = column then { sortType with order := !sortType.order }
  else { name := column, order := true }

end List

/-- The search bar writes what is in it once it has not changed for a while. -/
structure TaskInfo where
  artifactList : List Artifact
  searchQuery : String
  localQuery : String
  timer : Option String
  selectedFileTypes : List String
  sortType : ArtifactSortType
  images : Option ScrollableImages
  deriving DecidableEq

namespace TaskInfo

/-- The images are mounted while there are any. -/
def keptImages (artifactList : List Artifact) (images : Option ScrollableImages) :
    Option ScrollableImages :=
  if 0 < (imageArtifactsInfos artifactList).length then
    some (images.getD { currentIndex := 0, numberValue := "1" })
  else none

def mount (artifactList : List Artifact) : TaskInfo where
  artifactList := artifactList
  searchQuery := ""
  localQuery := ""
  timer := some ""
  selectedFileTypes := []
  sortType := { name := .name, order := true }
  images := keptImages artifactList none

section View

variable (fuse : Fuse) (s : TaskInfo)

def rows : List Artifact :=
  sortedArtifacts s.sortType
    (filteredArtifactList fuse s.artifactList s.selectedFileTypes s.searchQuery)

def imageCount : Nat := (imageArtifactsInfos s.artifactList).length

def shownImage : Option ImageInfo :=
  s.images.bind fun images => (imageArtifactsInfos s.artifactList)[images.currentIndex]?

end View

inductive Action where
  | artifacts (list : List Artifact)
  | typed (text : String)
  | elapsed
  | cleared
  | toggled (fileType : String)
  | clearedFileTypes
  | sorted (column : SortColumn)
  | previous
  | next
  | slid (index : Nat)
  | numberTyped (text : String)
  | numberEntered
  deriving DecidableEq

/-- What a user does with the outputs that are listed. -/
def Action.OnPanel : Action → Prop
  | .artifacts _ => False
  | _ => True

def setLocalQuery (s : TaskInfo) (text : String) : TaskInfo :=
  if text = s.localQuery then s else { s with localQuery := text, timer := some text }

def setImages (s : TaskInfo) (set : ScrollableImages → ScrollableImages) : Option TaskInfo :=
  s.images.map fun images => { s with images := some (set images) }

/-- The types in the list can be chosen from, and cleared, while the list has any. The slider and
the number are there while there are several images, the arrow keys while there are some. -/
def step (s : TaskInfo) : Action → Option TaskInfo
  | .artifacts list => some { s with artifactList := list, images := keptImages list s.images }
  | .typed text => some (s.setLocalQuery text)
  | .elapsed =>
    match s.timer with
    | some text => some { s with searchQuery := text, localQuery := text, timer := none }
    | none => none
  | .cleared =>
    if s.localQuery ≠ "" then some { s.setLocalQuery "" with searchQuery := "" } else none
  | .toggled type =>
    if type ∈ fileTypes s.artifactList then
      some { s with
        selectedFileTypes :=
          if type ∈ s.selectedFileTypes then s.selectedFileTypes.erase type
          else s.selectedFileTypes ++ [type] }
    else none
  | .clearedFileTypes =>
    if fileTypes s.artifactList ≠ [] ∧ s.selectedFileTypes ≠ [] then
      some { s with selectedFileTypes := [] }
    else none
  | .sorted column => some { s with sortType := handleSort s.sortType column }
  | .previous => s.setImages (·.handlePrev true s.imageCount)
  | .next => s.setImages (·.handleNext true s.imageCount)
  | .slid index =>
    if 1 < s.imageCount ∧ index < s.imageCount then
      s.setImages fun _ => ScrollableImages.setCurrentIndexWrapper index
    else none
  | .numberTyped text =>
    if 1 < s.imageCount then s.setImages fun images => { images with numberValue := text } else none
  | .numberEntered =>
    if 1 < s.imageCount then s.setImages (·.handleNumberEnter s.imageCount) else none

variable {fuse : Fuse} {s t : TaskInfo} {a : Action} {actions : List Action}

section FileTypes

variable {artifactList : List Artifact}

theorem mem_fileTypes {type : String} :
    type ∈ fileTypes artifactList ↔
      type ≠ "" ∧ ∃ artifact ∈ artifactList, fileType artifact.name = type := by
  simp [fileTypes, and_comm]

theorem fileTypes_eq_nil_iff :
    fileTypes artifactList = [] ↔ ∀ artifact ∈ artifactList, fileType artifact.name = "" := by
  rw [List.eq_nil_iff_forall_not_mem]
  constructor
  · intro h artifact hartifact
    by_contra hne
    exact h _ (mem_fileTypes.mpr ⟨hne, artifact, hartifact, rfl⟩)
  · intro h type htype
    obtain ⟨hne, artifact, hartifact, rfl⟩ := mem_fileTypes.mp htype
    exact hne (h artifact hartifact)

theorem mem_of_mem_filtered {selected : List String} {query : String} {artifact : Artifact}
    (h : artifact ∈ filteredArtifactList fuse artifactList selected query) :
    artifact ∈ artifactList ∧ (selected ≠ [] → fileType artifact.name ∈ selected) := by
  have hmem : artifact ∈ (if selected ≠ [] then
      artifactList.filter fun artifact => fileType artifact.name ∈ selected else artifactList) := by
    rw [filteredArtifactList] at h
    by_cases htrim : trim query.toList ≠ []
    · rw [if_pos htrim] at h
      exact fuse.mem _ _ _ h
    · rwa [if_neg htrim] at h
  split_ifs at hmem with hselected
  · obtain ⟨hlist, htype⟩ := List.mem_filter.mp hmem
    exact ⟨hlist, fun _ => of_decide_eq_true htype⟩
  · exact ⟨hmem, fun h => absurd h hselected⟩

end FileTypes

section Order

variable {sortType : ArtifactSortType}

theorem lessThan_iff {a b : String} :
    lessThan a b = true ↔ codeUnits a.toList < codeUnits b.toList :=
  decide_eq_true_iff

def sortUnits (sortType : ArtifactSortType) (artifact : Artifact) : List Nat :=
  codeUnits (sortValue sortType.name artifact).toList

/-- Up or down, the order is the one of the texts in the column. -/
theorem compareArtifacts_ne_gt_iff (a b : Artifact) :
    compareArtifacts sortType a b ≠ .gt ↔
      if sortType.order then sortUnits sortType a ≤ sortUnits sortType b
      else sortUnits sortType b ≤ sortUnits sortType a := by
  rw [compareArtifacts, sortUnits, sortUnits]
  simp only [lessThan_iff]
  cases sortType.order with
  | true =>
    simp only [if_true]
    split_ifs with hlt hgt
    · simp [hlt.le]
    · simp [hgt]
    · simp [not_lt.mp hgt]
  | false =>
    simp only [Bool.false_eq_true, if_false]
    split_ifs with hlt hgt
    · simp [hlt]
    · simp [hgt.le]
    · simp [not_lt.mp hlt]

theorem pairwise_sortedArtifacts (artifactList : List Artifact) :
    (sortedArtifacts sortType artifactList).Pairwise fun a b =>
      compareArtifacts sortType a b ≠ .gt := by
  have htrans : ∀ a b c, (compareArtifacts sortType a b != .gt) = true →
      (compareArtifacts sortType b c != .gt) = true →
        (compareArtifacts sortType a c != .gt) = true := by
    intro a b c
    simp only [bne_iff_ne, compareArtifacts_ne_gt_iff]
    split_ifs
    · exact le_trans
    · exact fun hba hcb => le_trans hcb hba
  have htotal : ∀ a b, (compareArtifacts sortType a b != .gt || compareArtifacts sortType b a != .gt)
      = true := by
    intro a b
    simp only [Bool.or_eq_true, bne_iff_ne, compareArtifacts_ne_gt_iff]
    split_ifs
    · exact le_total _ _
    · exact le_total _ _
  have h := List.pairwise_mergeSort htrans htotal artifactList
  exact h.imp fun hle => bne_iff_ne.mp hle

end Order

section Step

theorem enteredIndex_lt {n index : Nat} (hindex : index < n) (entered : Number) :
    ScrollableImages.enteredIndex n index entered < n := by
  cases entered with
  | nan => exact hindex
  | negative magnitude =>
    rw [ScrollableImages.enteredIndex]
    omega
  | nonneg magnitude =>
    rw [ScrollableImages.enteredIndex]
    split_ifs with hbig hsmall
    · omega
    · omega
    · have hle : magnitude.toNat ≤ n := ENat.toNat_le_of_le_natCast (not_lt.mp hbig)
      omega

/-- The search bar is about to write what is in it, or has. -/
def Settles (s : TaskInfo) : Prop := s.timer = some s.localQuery ∨ s.searchQuery = s.localQuery

/-- What a step changes: the list, the image that is looked at, the types that are chosen, the
search, or the order. -/
inductive Change (s : TaskInfo) : Action → TaskInfo → Prop where
  | list (list : List Artifact) :
    Change s (.artifacts list)
      { s with artifactList := list, images := keptImages list s.images }
  | images {a : Action} (images next : ScrollableImages) (ha : a.OnPanel)
    (himages : s.images = some images)
    (hindex : images.currentIndex < s.imageCount → next.currentIndex < s.imageCount) :
    Change s a { s with images := some next }
  | types {a : Action} (selected : List String) (ha : a.OnPanel)
    (htypes : fileTypes s.artifactList ≠ [])
    (hselected : "" ∈ selected → "" ∈ s.selectedFileTypes) :
    Change s a { s with selectedFileTypes := selected }
  | search {a : Action} (searchQuery localQuery : String) (timer : Option String) (ha : a.OnPanel)
    (hsettles : Settles s → Settles { s with searchQuery, localQuery, timer }) :
    Change s a { s with searchQuery, localQuery, timer }
  | order {a : Action} (sortType : ArtifactSortType) (ha : a.OnPanel) :
    Change s a { s with sortType := sortType }

theorem Change.ofImages {set : ScrollableImages → ScrollableImages} (ha : a.OnPanel)
    (h : s.setImages set = some t)
    (hset : ∀ images, images.currentIndex < s.imageCount →
      (set images).currentIndex < s.imageCount) : Change s a t := by
  obtain ⟨images, himages, rfl⟩ := Option.map_eq_some_iff.mp h
  exact .images images (set images) ha himages (hset images)

theorem step_change (h : step s a = some t) : Change s a t := by
  cases a with
  | artifacts list =>
    cases h
    exact .list list
  | typed text =>
    cases h
    rw [setLocalQuery]
    split_ifs
    · exact .order s.sortType trivial
    · exact .search s.searchQuery text (some text) trivial fun _ => .inl rfl
  | elapsed =>
    rw [step] at h
    split at h
    next text htimer =>
      cases h
      exact .search text text none trivial fun _ => .inr rfl
    next => cases h
  | cleared =>
    obtain ⟨hne, h⟩ := Option.ite_none_right_eq_some.mp h
    cases h
    rw [setLocalQuery, if_neg (Ne.symm hne)]
    exact .search "" "" (some "") trivial fun _ => .inl rfl
  | toggled type =>
    obtain ⟨htype, h⟩ := Option.ite_none_right_eq_some.mp h
    cases h
    refine .types _ trivial (List.ne_nil_of_mem htype) fun hempty => ?_
    split_ifs at hempty
    · exact List.mem_of_mem_erase hempty
    · have hne : type ≠ "" := (mem_fileTypes.mp htype).1
      simpa [hne.symm] using hempty
  | clearedFileTypes =>
    obtain ⟨⟨htypes, -⟩, h⟩ := Option.ite_none_right_eq_some.mp h
    cases h
    exact .types [] trivial htypes fun hempty => absurd hempty List.not_mem_nil
  | sorted column =>
    cases h
    exact .order _ trivial
  | previous => exact .ofImages trivial h fun images hlt => Nat.mod_lt _ (by omega)
  | next => exact .ofImages trivial h fun images hlt => Nat.mod_lt _ (by omega)
  | slid index =>
    obtain ⟨⟨-, hindex⟩, h⟩ := Option.ite_none_right_eq_some.mp h
    exact .ofImages trivial h fun images _ => hindex
  | numberTyped text =>
    obtain ⟨-, h⟩ := Option.ite_none_right_eq_some.mp h
    exact .ofImages trivial h fun images hlt => hlt
  | numberEntered =>
    obtain ⟨-, h⟩ := Option.ite_none_right_eq_some.mp h
    exact .ofImages trivial h fun images hlt => enteredIndex_lt hlt _

end Step

structure Kept (s : TaskInfo) : Prop where
  settles : Settles s
  types : "" ∉ s.selectedFileTypes

theorem kept_mount (artifactList : List Artifact) : Kept (mount artifactList) where
  settles := .inl rfl
  types := List.not_mem_nil

theorem Kept.step (h : Kept s) (hstep : step s a = some t) : Kept t := by
  cases step_change hstep with
  | list list => exact ⟨h.settles, h.types⟩
  | images images next ha himages hindex => exact ⟨h.settles, h.types⟩
  | types selected ha htypes hselected =>
    exact ⟨h.settles, fun hempty => h.types (hselected hempty)⟩
  | search searchQuery localQuery timer ha hsettles => exact ⟨hsettles h.settles, h.types⟩
  | order sortType ha => exact ⟨h.settles, h.types⟩

section Panel

/-- Nothing is hidden: the rows are the outputs, in order. -/
structure ShowsAll (fuse : Fuse) (s : TaskInfo) : Prop where
  perm : (s.rows fuse).Perm s.artifactList
  ordered : (s.rows fuse).Pairwise fun a b => compareArtifacts s.sortType a b ≠ .gt

/-- Types are chosen that no output has, and there are none to choose from. -/
structure Stuck (s : TaskInfo) : Prop where
  artifacts : s.artifactList ≠ []
  selected : s.selectedFileTypes ≠ []
  untyped : fileTypes s.artifactList = []
  types : "" ∉ s.selectedFileTypes

theorem Stuck.rows_eq_nil (h : Stuck s) : s.rows fuse = [] := by
  rw [List.eq_nil_iff_forall_not_mem]
  intro artifact hrow
  obtain ⟨hlist, htype⟩ := mem_of_mem_filtered (List.mem_mergeSort.mp hrow)
  have hempty := fileTypes_eq_nil_iff.mp h.untyped artifact hlist
  exact h.types (hempty ▸ htype h.selected)

/-- What could change the types that are chosen is not there. -/
theorem Stuck.step (h : Stuck s) (ha : a.OnPanel) (hstep : step s a = some t) : Stuck t := by
  cases step_change hstep with
  | list list => exact ha.elim
  | types selected _ htypes hselected => exact absurd h.untyped htypes
  | images | search | order => exact ⟨h.artifacts, h.selected, h.untyped, h.types⟩

theorem exists_reaches_untyped
    (h : s.selectedFileTypes = [] ∨ fileTypes s.artifactList ≠ []) :
    ∃ t, Reaches step Action.OnPanel s t ∧ t.selectedFileTypes = [] ∧
      t.artifactList = s.artifactList ∧ t.localQuery = s.localQuery ∧
      t.searchQuery = s.searchQuery ∧ t.timer = s.timer := by
  by_cases hselected : s.selectedFileTypes = []
  · exact ⟨s, .refl s, hselected, rfl, rfl, rfl, rfl⟩
  · have hstep : step s .clearedFileTypes = some { s with selectedFileTypes := [] } :=
      if_pos ⟨h.resolve_left hselected, hselected⟩
    exact ⟨_, .single (a := .clearedFileTypes) trivial hstep, rfl, rfl, rfl, rfl, rfl⟩

/-- The search is cleared, by hand or by what is left to elapse. -/
theorem exists_reaches_unsearched (h : Settles s) :
    ∃ t, Reaches step Action.OnPanel s t ∧ t.searchQuery = "" ∧
      t.artifactList = s.artifactList ∧ t.selectedFileTypes = s.selectedFileTypes := by
  by_cases hlocal : s.localQuery = ""
  · rw [Settles, hlocal] at h
    obtain htimer | hsearch := h
    · have hstep : step s .elapsed =
          some { s with searchQuery := "", localQuery := "", timer := none } := by
        simp only [TaskInfo.step, htimer]
      exact ⟨_, .single (a := .elapsed) trivial hstep, rfl, rfl, rfl⟩
    · exact ⟨s, .refl s, hsearch, rfl, rfl⟩
  · have hset : s.setLocalQuery "" = { s with localQuery := "", timer := some "" } :=
      if_neg (Ne.symm hlocal)
    have hstep : step s .cleared = some { s.setLocalQuery "" with searchQuery := "" } :=
      if_pos hlocal
    refine ⟨_, .single (a := .cleared) trivial hstep, rfl, ?_, ?_⟩
    · rw [hset]
    · rw [hset]

theorem showsAll_of_cleared (hsearch : s.searchQuery = "") (hselected : s.selectedFileTypes = []) :
    ShowsAll fuse s where
  perm := by
    have hfiltered : filteredArtifactList fuse s.artifactList [] "" = s.artifactList := rfl
    rw [rows, hsearch, hselected, hfiltered]
    exact List.mergeSort_perm ..
  ordered := pairwise_sortedArtifacts _

theorem showsAll_of_nil (h : s.artifactList = []) : ShowsAll fuse s where
  perm := by
    have hrows : s.rows fuse = [] := by
      rw [List.eq_nil_iff_forall_not_mem]
      intro artifact hrow
      have hlist := (mem_of_mem_filtered (List.mem_mergeSort.mp hrow)).1
      rw [h] at hlist
      cases hlist
    rw [hrows, h]
  ordered := pairwise_sortedArtifacts _

end Panel

section Images

def InRange (s : TaskInfo) : Prop := ∀ images ∈ s.images, images.currentIndex < s.imageCount

/-- The list that takes the place of the one before leaves the image that is looked at, or none. -/
def KeepsImage (s : TaskInfo) : Action → Prop
  | .artifacts list => ∀ images ∈ s.images, 0 < (imageArtifactsInfos list).length →
      images.currentIndex < (imageArtifactsInfos list).length
  | _ => True

def Mounted (s : TaskInfo) : Prop := s.images.isSome ↔ 0 < s.imageCount

/-- An image is shown where there is one. -/
def ShowsImage (s : TaskInfo) : Prop := 0 < s.imageCount → s.shownImage.isSome

theorem isSome_keptImages (artifactList : List Artifact) (images : Option ScrollableImages) :
    (keptImages artifactList images).isSome ↔ 0 < (imageArtifactsInfos artifactList).length := by
  rw [keptImages]
  split_ifs with h <;> simp [h]

theorem Mounted.step (h : Mounted s) (hstep : step s a = some t) : Mounted t := by
  cases step_change hstep with
  | list list => exact isSome_keptImages list s.images
  | images images next ha himages hindex =>
    have hpos : 0 < s.imageCount := h.mp (by rw [himages]; rfl)
    exact ⟨fun _ => hpos, fun _ => rfl⟩
  | types | search | order => exact h

theorem Mounted.showsImage_iff (h : Mounted s) : ShowsImage s ↔ InRange s := by
  have hpos : s.images.isSome ↔ 0 < s.imageCount := h
  rw [ShowsImage, InRange, ← hpos, shownImage]
  cases s.images with
  | none => simp
  | some images => simp [imageCount]

theorem InRange.step (h : InRange s) (ha : a.OnPanel) (hstep : step s a = some t) : InRange t := by
  cases step_change hstep with
  | list list => exact ha.elim
  | images images next _ himages hindex =>
    intro shown hshown
    cases hshown
    exact hindex (h images himages)
  | types | search | order => exact h

/-- A list that takes the place of the one before leaves the image exactly if it has one there. -/
theorem keepsImage_iff {list : List Artifact} (hstep : step s (.artifacts list) = some t) :
    KeepsImage s (.artifacts list) ↔ InRange t := by
  cases hstep
  rw [KeepsImage, InRange]
  dsimp only [imageCount, keptImages]
  split_ifs with hpos
  · cases s.images with
    | none => simp [hpos]
    | some images => simp [hpos]
  · simp [hpos]

theorem keepsImage_iff_inRange (h : InRange s) (hstep : step s a = some t) :
    KeepsImage s a ↔ InRange t := by
  by_cases ha : a.OnPanel
  · have hkeeps : KeepsImage s a := by
      cases a with
      | artifacts list => exact ha.elim
      | _ => exact trivial
    exact ⟨fun _ => h.step ha hstep, fun _ => hkeeps⟩
  · cases a with
    | artifacts list => exact keepsImage_iff hstep
    | _ => exact absurd trivial ha

/-- To look at the image before or behind leads to one, wherever this starts. -/
theorem exists_turn (h : Mounted s) (hpos : 0 < s.imageCount) (ha : a = .previous ∨ a = .next) :
    ∃ t, step s a = some t ∧ ShowsImage t := by
  obtain ⟨images, himages⟩ := Option.isSome_iff_exists.mp (h.mpr hpos)
  have hturn : ∃ next : ScrollableImages, next.currentIndex < s.imageCount ∧
      step s a = some { s with images := some next } := by
    obtain rfl | rfl := ha
    · refine ⟨images.handlePrev true s.imageCount, Nat.mod_lt _ hpos, ?_⟩
      rw [step, setImages, himages, Option.map_some]
    · refine ⟨images.handleNext true s.imageCount, Nat.mod_lt _ hpos, ?_⟩
      rw [step, setImages, himages, Option.map_some]
  obtain ⟨next, hlt, hstep⟩ := hturn
  refine ⟨_, hstep, (h.step hstep).showsImage_iff.mpr fun shown hshown => ?_⟩
  cases hshown
  exact hlt

/-- There is an image to look at all along exactly if no list that is shown has images, but too few
for the one that is looked at; where this went wrong, the next image or the one before is shown. -/
theorem showsImage_of_run (artifactList : List Artifact) (actions : List Action) (s : TaskInfo)
    (h : Execution.exec step (mount artifactList) actions = some s) :
    (AllSteps step KeepsImage (mount artifactList) actions ↔
      ∀ front, front <+: actions → ∀ u, Execution.exec step (mount artifactList) front = some u →
        ShowsImage u) ∧
      (0 < s.imageCount → ∀ a, a = .previous ∨ a = .next →
        ∃ t, step s a = some t ∧ ShowsImage t) := by
  have hmount : Mounted (mount artifactList) := isSome_keptImages artifactList none
  have hrange : InRange (mount artifactList) := by
    intro images himages
    obtain ⟨hpos, hnone⟩ := Option.ite_none_right_eq_some.mp himages
    cases hnone
    exact hpos
  have hmounted : Mounted s := invariant (fun s a t => Mounted.step) hmount h
  refine ⟨?_, fun hpos a => exists_turn hmounted hpos⟩
  have hstep : ∀ s a t, Mounted s ∧ InRange s → step s a = some t →
      (KeepsImage s a ↔ ShowsImage t) ∧ (KeepsImage s a → Mounted t ∧ InRange t) := by
    rintro s a t ⟨hs, hsrange⟩ hst
    have ht : Mounted t := hs.step hst
    have hiff := keepsImage_iff_inRange hsrange hst
    exact ⟨hiff.trans ht.showsImage_iff.symm, fun hkeeps => ⟨ht, hiff.mp hkeeps⟩⟩
  exact allSteps_iff_forall_front (fun s hs => hs.1.showsImage_iff.mpr hs.2) hstep
    ⟨hmount, hrange⟩ h

end Images

section Examples

def exampleArtifact (name mimeType : String) : Artifact where
  name := name
  url := name
  mimeType := mimeType
  parentTask := "fit"
  parentTaskId := "1"

/-- Finds what has the query for a name. -/
def exampleFuse : Fuse where
  search list query := list.filter (·.name = query)
  mem _ _ _ h := (List.mem_filter.mp h).1

/-- A type is chosen, and then a task is selected whose outputs have none. -/
def exampleStuck : TaskInfo :=
  { mount [exampleArtifact "log" "text/plain"] with selectedFileTypes := [".txt"] }

/-- The second of two images is looked at, and then a task is selected that has one. -/
def exampleShrunk : TaskInfo :=
  { mount [exampleArtifact "a.png" "image/png"] with images := some ⟨1, "2"⟩ }

theorem showsImage_of_run_example :
    exampleShrunk.shownImage = none ∧ ∃ t, step exampleShrunk .next = some t ∧ ShowsImage t :=
  ⟨by decide +kernel,
    (showsImage_of_run
      [exampleArtifact "a.png" "image/png", exampleArtifact "b.png" "image/png"]
      [.next, .artifacts [exampleArtifact "a.png" "image/png"]] exampleShrunk
      (by decide +kernel)).2 (by decide +kernel) .next (.inr rfl)⟩

end Examples

end TaskInfo

end Workflows.Frontend
