import RemoteAccess.Basics.Transitions
import RemoteAccess.DirectoryListing
import RemoteAccess.QtUtf8

/-! The two panes of the file manager. The view spells paths as text, typed or put together
from what is shown, and the client hands the bytes of the text to the file system. Other
programs may change the files at any time. -/

namespace RemoteAccess.FileExplorer

open QtText QtUtf8 DirectoryListing

/-! ### The file system -/

inductive Found
  /-- Nothing, or no directory. -/
  | missing
  /-- Looking at it, or iterating over it, throws. -/
  | unreadable
  | directory (entries : List DirectoryEntry)

/-- `FileTransferEngine::listDirectory` on what is found. -/
def Found.listing : Found → Option (List DirectoryItem)
  | .missing => listDirectory none
  | .unreadable => none
  | .directory entries => listDirectory (some entries)

/-- The file system that paths are handed to, over its states `φ`. `removeAll` is
`std::filesystem::remove_all`, which may stop before everything is removed. -/
structure Disk (φ : Type*) where
  find : φ → Name → Found
  removeAll : φ → Name → φ
  /-- An entry is named by the last part of its path. -/
  slashless : ∀ fs path entries, find fs path = .directory entries →
    ∀ entry ∈ entries, 0x2F ∉ entry.name

variable {φ : Type*}

/-! ### SessionClient -/

/-- The `QVariantMap` of an item. -/
structure ShownItem where
  name : QString
  size : UInt64
  isDir : Bool
  modifiedTime : UInt64
deriving DecidableEq

/-- `QString::fromStdString`. -/
def fromStdString (name : Name) : QString := fromUtf8 name name.length

def shownItem (item : DirectoryItem) : ShownItem :=
  ⟨fromStdString item.name, item.size, item.isDirectory, item.modifiedTime⟩

/-- The members for one side, `currentLocalPath_` and `localDirectoryList_` or their
remote counterparts. -/
structure Pane where
  currentPath : QString
  directoryList : List ShownItem

def dot : QString := [0x2E]

/-- `requestLocalDirectoryListing` and `requestDirectoryListing`: both enumerate the file
system the client runs on. A listing that throws is `none`. -/
def requestListing (disk : Disk φ) (fs : φ) (path : QString) : Option Pane := do
  let currentPath := if path = [] then dot else path
  let items ← (disk.find fs (toUtf8 currentPath)).listing
  some { currentPath := currentPath, directoryList := items.map shownItem }

inductive Side
  | localPane
  | remotePane
deriving DecidableEq

structure Explorer (φ : Type*) where
  fs : φ
  localPane : Pane
  remotePane : Pane

def Explorer.pane (e : Explorer φ) : Side → Pane
  | .localPane => e.localPane
  | .remotePane => e.remotePane

def Explorer.setPane (e : Explorer φ) : Side → Pane → Explorer φ
  | .localPane, pane => { e with localPane := pane }
  | .remotePane, pane => { e with remotePane := pane }

def Explorer.setFs (e : Explorer φ) (fs : φ) : Explorer φ := { e with fs := fs }

def Explorer.request (disk : Disk φ) (e : Explorer φ) (side : Side) (path : QString) :
    Option (Explorer φ) :=
  (requestListing disk e.fs path).map (e.setPane side)

/-- `deleteLocalFile` and `deleteRemoteFile`. -/
def Explorer.deleteFile (disk : Disk φ) (e : Explorer φ) (side : Side) (path : QString) :
    Option (Explorer φ) :=
  if path = [] then some e
  else (e.setFs (disk.removeAll e.fs (toUtf8 path))).request disk side (e.pane side).currentPath

/-! ### FileTransferView -/

def fullPath (pane : Pane) (name : QString) : QString :=
  if pane.currentPath = dot then name else pane.currentPath ++ [0x2F] ++ name

/-- The handler of the Parent button. -/
def Explorer.parent (disk : Disk φ) (e : Explorer φ) (side : Side) : Option (Explorer φ) :=
  let parts := (e.pane side).currentPath.splitOn 0x2F
  if parts.length > 1 then
    let newPath := [0x2F].intercalate parts.dropLast
    e.request disk side (if newPath.length = 0 then dot else newPath)
  else some e

/-- The item of a button is one that its pane shows. -/
inductive Click (φ : Type*)
  /-- The path field is accepted. -/
  | typed (side : Side) (text : QString)
  | openItem (side : Side) (item : ShownItem)
  | parent (side : Side)
  /-- The Refresh button, the choice of an agent, or the end of an upload. -/
  | refresh (side : Side)
  | deleteItem (side : Side) (item : ShownItem)
  /-- `Component.onCompleted`, and `onConnectionStateChanged(true)` while connected. -/
  | appears (isConnected : Bool)
  /-- Other programs, or an upload, leave these files. -/
  | changed (fs : φ)

/-- A button of an item that is not shown cannot be pressed; an exception that leaves a
handler ends the program. -/
def step (disk : Disk φ) (e : Explorer φ) : Click φ → Option (Explorer φ)
  | .typed side text => e.request disk side text
  | .openItem side item =>
    if item ∈ (e.pane side).directoryList ∧ item.isDir = true then
      e.request disk side (fullPath (e.pane side) item.name)
    else none
  | .parent side => e.parent disk side
  | .refresh side => e.request disk side (e.pane side).currentPath
  | .deleteItem side item =>
    if item ∈ (e.pane side).directoryList then
      e.deleteFile disk side (fullPath (e.pane side) item.name)
    else none
  | .appears isConnected => do
    let listed ← e.request disk .localPane dot
    if isConnected then listed.request disk .remotePane dot else some listed
  | .changed fs => some (e.setFs fs)

def start (fs : φ) : Explorer φ := ⟨fs, ⟨dot, []⟩, ⟨dot, []⟩⟩

/-! ### What the buttons are for -/

/-- Where a pane is: the names on the way there. -/
abbrev Place := List QString

def segments (text : QString) : Place := if text = [] then [dot] else text.splitOn 0x2F

def below (place : Place) (name : QString) : Place :=
  if place = [dot] then segments name else place ++ [name]

/-- Above a directory of the root there is no name left: the working directory comes next. -/
def above (place : Place) : Place := if place.dropLast = [[]] then [dot] else place.dropLast

/-- The Parent button goes no higher than the first name. -/
def walk (places : Side → Place) : Click φ → Side → Place
  | .typed side text, other => if other = side then segments text else places other
  | .openItem side item, other =>
    if other = side then below (places side) item.name else places other
  | .parent side, other =>
    if other = side ∧ 1 < (places side).length then above (places side) else places other
  | .appears isConnected, other =>
    if other = .localPane ∨ isConnected = true then [dot] else places other
  | .refresh _, other | .deleteItem .., other | .changed _, other => places other

def visited (clicks : List (Click φ)) : Side → Place := clicks.foldl walk fun _ => [dot]

def deletes (place : Place) (item : ShownItem) : Option Place :=
  if place = [dot] ∧ item.name = [] then none else some (below place item.name)

def relists (places : Side → Place) : Click φ → Side → Prop
  | .typed side _, other | .openItem side _, other | .refresh side, other => other = side
  | .deleteItem side item, other => other = side ∧ deletes (places side) item ≠ none
  | .parent side, other => other = side ∧ 1 < (places side).length
  | .appears isConnected, other => other = .localPane ∨ isConnected = true
  | .changed _, _ => False

def spell (place : Place) : QString := [0x2F].intercalate place

def bytes (place : Place) : Name := [0x2F].intercalate (place.map toUtf8)

/-- The pane shows what was at a place when the files were `fs`. -/
def Shows (disk : Disk φ) (fs : φ) (place : Place) (pane : Pane) : Prop :=
  ∃ items, (disk.find fs (bytes place)).listing = some items ∧
    pane.directoryList = items.map shownItem

/-! ### Paths as text -/

theorem toUtf8_slash (rest : QString) : toUtf8 (0x2F :: rest) = 0x2F :: toUtf8 rest := by
  rw [toUtf8_cons (by decide : isOwn 0x2F = true)]
  rfl

theorem toUtf8_append_slash (text rest : QString) :
    toUtf8 (text ++ 0x2F :: rest) = toUtf8 text ++ 0x2F :: toUtf8 rest := by
  fun_induction toUtf8 text with
  | case1 => exact toUtf8_slash rest
  | case2 u =>
    rw [List.singleton_append, toUtf8, if_neg (by simp [isLowSurrogate]), toUtf8_slash]
  | case3 u v text pair ih =>
    rw [List.cons_append, List.cons_append, toUtf8, if_pos pair, ih, List.append_assoc]
  | case4 u v text single ih =>
    rw [List.cons_append, List.cons_append, toUtf8, if_neg single, ← List.cons_append, ih,
      List.append_assoc]

theorem intercalate_concat {α : Type*} (mark last : List α) {parts : List (List α)}
    (some_ : parts ≠ []) :
    mark.intercalate (parts ++ [last]) = mark.intercalate parts ++ mark ++ last := by
  induction parts with
  | nil => exact absurd rfl some_
  | cons first parts ih =>
    cases parts with
    | nil => simp
    | cons second parts =>
      rw [List.cons_append, List.cons_append, List.intercalate_cons_cons, ← List.cons_append,
        ih (List.cons_ne_nil _ _), List.intercalate_cons_cons]
      simp

theorem toUtf8_spell (place : Place) : toUtf8 (spell place) = bytes place := by
  unfold spell bytes
  induction place with
  | nil => rfl
  | cons first place ih =>
    cases place with
    | nil => simp
    | cons second place =>
      simp only [List.map_cons] at ih ⊢
      rw [List.intercalate_cons_cons, List.append_assoc, List.singleton_append,
        toUtf8_append_slash, ih, List.intercalate_cons_cons]
      simp

theorem not_mem_of_mem_splitOn {α : Type*} [DecidableEq α] (mark : α) (text : List α) :
    ∀ part ∈ text.splitOn mark, mark ∉ part := by
  induction text with
  | nil => simp
  | cons u text ih =>
    rw [List.splitOn_cons_eq_if_modifyHead]
    obtain ⟨first, rest, split⟩ := List.exists_cons_of_ne_nil (List.splitOn_ne_nil mark text)
    rw [split] at ih ⊢
    split
    · simpa using ih
    · next other =>
      intro part member
      obtain rfl | later := List.mem_cons.mp member
      · have differ : mark ≠ u := fun same => other (by simp [same])
        exact List.not_mem_cons_of_ne_of_not_mem differ (ih first (by simp))
      · exact ih part (List.mem_cons_of_mem first later)

/-- Names that a text spells: there is one, not the empty one alone, and none is cut in two. -/
structure IsPlace (place : Place) : Prop where
  ne_nil : place ≠ []
  ne_empty : place ≠ [[]]
  slashless : ∀ name ∈ place, 0x2F ∉ name

theorem isPlace_dot : IsPlace [dot] := by
  refine ⟨by decide, by decide, fun name member => ?_⟩
  obtain rfl := List.mem_singleton.mp member
  decide

theorem spell_segments (text : QString) :
    spell (segments text) = if text = [] then dot else text := by
  unfold segments
  split
  · rfl
  · exact List.intercalate_splitOn 0x2F

theorem isPlace_segments (text : QString) : IsPlace (segments text) := by
  unfold segments
  split
  · exact isPlace_dot
  · next some_ =>
    refine ⟨List.splitOn_ne_nil _ _, fun single => some_ ?_, not_mem_of_mem_splitOn _ _⟩
    rw [← @List.intercalate_splitOn _ text _ _ 0x2F, single]
    rfl

section IsPlace

variable {place : Place} (is : IsPlace place)
include is

theorem IsPlace.splitOn_spell : (spell place).splitOn 0x2F = place :=
  List.splitOn_intercalate 0x2F is.slashless is.ne_nil

theorem IsPlace.spell_ne_nil : spell place ≠ [] := by
  intro empty
  have split := is.splitOn_spell
  rw [empty] at split
  exact is.ne_empty split.symm

theorem IsPlace.spell_eq_dot_iff : spell place = dot ↔ place = [dot] := by
  constructor
  · intro here
    rw [← is.splitOn_spell, here]
    decide
  · rintro rfl
    rfl

theorem IsPlace.below {name : QString} (slashless : 0x2F ∉ name) :
    IsPlace (below place name) := by
  unfold FileExplorer.below
  split
  · exact isPlace_segments name
  · refine ⟨by simp, fun single => ?_, fun other member => ?_⟩
    · have few := congrArg List.length single
      rw [List.length_append, List.length_singleton, List.length_singleton] at few
      exact is.ne_nil (List.length_eq_zero_iff.mp (by omega))
    · obtain old | rfl := (List.mem_append.mp member).imp_right List.mem_singleton.mp
      · exact is.slashless other old
      · exact slashless

theorem IsPlace.above (deep : 1 < place.length) : IsPlace (above place) := by
  unfold FileExplorer.above
  split
  · exact isPlace_dot
  · next named =>
    refine ⟨?_, named, fun name member => is.slashless name (List.dropLast_subset _ member)⟩
    rw [← List.length_pos_iff, List.length_dropLast]
    omega

theorem IsPlace.spell_below {pane : Pane} (here : pane.currentPath = spell place)
    (name : QString) :
    spell (FileExplorer.below place name) =
      if fullPath pane name = [] then dot else fullPath pane name := by
  rw [fullPath, here]
  by_cases atDot : place = [dot]
  · rw [if_pos (is.spell_eq_dot_iff.mpr atDot), FileExplorer.below, if_pos atDot, spell_segments]
  · rw [if_neg (mt is.spell_eq_dot_iff.mp atDot), FileExplorer.below, if_neg atDot,
      if_neg (by simp)]
    exact intercalate_concat _ _ is.ne_nil

theorem IsPlace.fullPath_eq_nil_iff {pane : Pane} (here : pane.currentPath = spell place)
    (name : QString) : fullPath pane name = [] ↔ place = [dot] ∧ name = [] := by
  rw [fullPath, here]
  by_cases atDot : place = [dot]
  · rw [if_pos (is.spell_eq_dot_iff.mpr atDot)]
    exact (and_iff_right atDot).symm
  · rw [if_neg (mt is.spell_eq_dot_iff.mp atDot)]
    simp [atDot]

theorem IsPlace.spell_above (deep : 1 < place.length) : spell (FileExplorer.above place) =
    if ([0x2F].intercalate place.dropLast).length = 0 then dot
    else [0x2F].intercalate place.dropLast := by
  have fewer : place.dropLast ≠ [] := by
    rw [← List.length_pos_iff, List.length_dropLast]
    omega
  have slashless : ∀ name ∈ place.dropLast, 0x2F ∉ name := fun name member =>
    is.slashless name (List.dropLast_subset _ member)
  have empty : ([0x2F].intercalate place.dropLast).length = 0 ↔ place.dropLast = [[]] := by
    rw [List.length_eq_zero_iff]
    constructor
    · intro nothing
      rw [← List.splitOn_intercalate 0x2F slashless fewer, nothing]
      rfl
    · intro single
      rw [single]
      rfl
  rw [FileExplorer.above]
  by_cases top : place.dropLast = [[]]
  · rw [if_pos top, if_pos (empty.mpr top)]
    rfl
  · rw [if_neg top, if_neg (mt empty.mp top)]
    rfl

end IsPlace

/-! ### What is shown -/

theorem fromStdString_slashless {name : Name} (slashless : 0x2F ∉ name) :
    0x2F ∉ fromStdString name := by
  intro member
  have whole : ¬ (name.length : Int) < 0 := by omega
  simp only [fromStdString, fromUtf8, if_neg whole, Int.toNat_natCast, List.take_length] at member
  have among := ascii_of_mem_convertToUnicode (by decide : (0x2F : UInt8) < 0x80) member
  split at among
  · exact slashless (List.drop_subset 3 name among)
  · exact slashless among

variable {disk : Disk φ}

theorem Shows.entry {fs : φ} {place : Place} {pane : Pane} (shows_ : Shows disk fs place pane)
    {item : ShownItem} (member : item ∈ pane.directoryList) :
    ∃ entries entry, disk.find fs (bytes place) = .directory entries ∧ entry ∈ entries ∧
      (itemOf entry).map shownItem = some item := by
  obtain ⟨items, listed, list⟩ := shows_
  rw [list] at member
  obtain ⟨directoryItem, among, rfl⟩ := List.mem_map.mp member
  cases found : disk.find fs (bytes place) with
  | missing =>
    rw [found] at listed
    obtain rfl := Option.some.inj listed
    cases among
  | unreadable =>
    rw [found] at listed
    cases listed
  | directory entries =>
    rw [found] at listed
    obtain ⟨unsorted, asked, rfl⟩ := listDirectory_some listed
    have inUnsorted := (sortItems_perm unsorted).subset among
    obtain ⟨entry, inEntries, asked'⟩ := entry_of_mapM asked inUnsorted
    exact ⟨entries, entry, rfl, inEntries, by rw [asked', Option.map_some]⟩

theorem name_of_shownItem {entry : DirectoryEntry} {item : ShownItem}
    (made : (itemOf entry).map shownItem = some item) : item.name = fromStdString entry.name := by
  obtain ⟨directoryItem, asked, rfl⟩ := Option.map_eq_some_iff.mp made
  rw [← (name_of_itemOf asked).1]
  rfl

theorem Shows.slashless {fs : φ} {place : Place} {pane : Pane} (shows_ : Shows disk fs place pane) :
    ∀ item ∈ pane.directoryList, 0x2F ∉ item.name := by
  intro item member
  obtain ⟨entries, entry, found, inEntries, made⟩ := shows_.entry member
  rw [name_of_shownItem made]
  exact fromStdString_slashless (disk.slashless fs (bytes place) entries found entry inEntries)

theorem requestListing_spell {fs : φ} {place : Place} {path : QString} {pane : Pane}
    (here : spell place = if path = [] then dot else path)
    (requested : requestListing disk fs path = some pane) :
    pane.currentPath = spell place ∧ Shows disk fs place pane := by
  simp only [requestListing, ← here, toUtf8_spell, Option.bind_eq_bind,
    Option.bind_eq_some_iff] at requested
  obtain ⟨items, listed, made⟩ := requested
  obtain rfl := Option.some.inj made
  exact ⟨rfl, items, listed, rfl⟩

section Sides

variable (e : Explorer φ) (side other : Side) (pane : Pane)

@[simp] theorem pane_setPane_same : (e.setPane side pane).pane side = pane := by
  cases side <;> rfl

theorem pane_setPane_ne (differ : other ≠ side) :
    (e.setPane side pane).pane other = e.pane other := by
  cases side <;> cases other <;> first | rfl | exact absurd rfl differ

@[simp] theorem pane_setFs (fs : φ) : (e.setFs fs).pane side = e.pane side := by
  cases side <;> rfl

@[simp] theorem fs_setPane : (e.setPane side pane).fs = e.fs := by cases side <;> rfl

end Sides

variable {e e' : Explorer φ} {places : Side → Place}

theorem request_spell {side : Side} {place : Place} {path : QString}
    (here : spell place = if path = [] then dot else path)
    (requested : e.request disk side path = some e') :
    e'.fs = e.fs ∧ (e'.pane side).currentPath = spell place ∧
      Shows disk e'.fs place (e'.pane side) ∧
      ∀ other, other ≠ side → e'.pane other = e.pane other := by
  obtain ⟨pane, listed, rfl⟩ := Option.map_eq_some_iff.mp requested
  obtain ⟨path, shows_⟩ := requestListing_spell here listed
  rw [pane_setPane_same, fs_setPane]
  exact ⟨rfl, path, shows_, fun other differ => pane_setPane_ne e side other pane differ⟩

/-! ### One click -/

/-- The files after a click: only a deletion goes beyond looking. -/
def filesAfter (disk : Disk φ) (places : Side → Place) (fs : φ) : Click φ → φ
  | .deleteItem side item =>
    match deletes (places side) item with
    | some place => disk.removeAll fs (bytes place)
    | none => fs
  | .changed fs => fs
  | .typed .. | .openItem .. | .parent _ | .refresh _ | .appears _ => fs

/-- A pane whose path spells the place where it is. -/
structure At (place : Place) (pane : Pane) : Prop where
  is : IsPlace place
  path : pane.currentPath = spell place
  slashless : ∀ item ∈ pane.directoryList, 0x2F ∉ item.name

structure Follows (disk : Disk φ) (places : Side → Place) (e : Explorer φ) (click : Click φ)
    (e' : Explorer φ) : Prop where
  files : e'.fs = filesAfter disk places e.fs click
  at_ : ∀ side, At (walk places click side) (e'.pane side)
  listed : ∀ side, relists places click side →
    Shows disk e'.fs (walk places click side) (e'.pane side)
  kept : ∀ side, ¬ relists places click side → e'.pane side = e.pane side

theorem walk_of_not_relists {click : Click φ} {side : Side}
    (stays : ¬ relists places click side) : walk places click side = places side := by
  cases click with
  | typed => exact if_neg stays
  | openItem => exact if_neg stays
  | parent => exact if_neg stays
  | refresh => rfl
  | deleteItem => rfl
  | appears => exact if_neg stays
  | changed => rfl

theorem follows_request (at_ : ∀ side, At (places side) (e.pane side)) {click : Click φ}
    {side : Side} {path : QString} {fs : φ} (files : fs = filesAfter disk places e.fs click)
    (is : IsPlace (walk places click side))
    (here : spell (walk places click side) = if path = [] then dot else path)
    (only : ∀ other, relists places click other ↔ other = side)
    (requested : (e.setFs fs).request disk side path = some e') :
    Follows disk places e click e' := by
  obtain ⟨sameFs, placed, shows_, others⟩ := request_spell here requested
  have kept : ∀ other, ¬ relists places click other → e'.pane other = e.pane other := by
    intro other stays
    rw [others other (mt (only other).mpr stays), pane_setFs]
  refine ⟨sameFs.trans files, fun other => ?_, fun other moved => ?_, kept⟩
  · by_cases moved : other = side
    · subst moved
      exact ⟨is, placed, shows_.slashless⟩
    · have stays := mt (only other).mp moved
      rw [walk_of_not_relists stays, kept other stays]
      exact at_ other
  · obtain rfl := (only other).mp moved
    exact shows_

theorem follows_still (at_ : ∀ side, At (places side) (e.pane side)) {click : Click φ} {fs : φ}
    (files : fs = filesAfter disk places e.fs click)
    (stays : ∀ side, ¬ relists places click side) : Follows disk places e click (e.setFs fs) := by
  refine ⟨files, fun side => ?_, fun side moved => absurd moved (stays side), fun side _ =>
    pane_setFs e side fs⟩
  rw [walk_of_not_relists (stays side), pane_setFs]
  exact at_ side

section Step

variable (at_ : ∀ side, At (places side) (e.pane side))
include at_

theorem step_typed {side : Side} {text : QString}
    (stepped : step disk e (.typed side text) = some e') :
    Follows disk places e (.typed side text) e' := by
  have walked : walk places (.typed side text : Click φ) side = segments text := if_pos rfl
  refine follows_request at_ rfl ?_ ?_ (fun _ => Iff.rfl) stepped
  · rw [walked]
    exact isPlace_segments text
  · rw [walked]
    exact spell_segments text

theorem step_openItem {side : Side} {item : ShownItem}
    (stepped : step disk e (.openItem side item) = some e') :
    Follows disk places e (.openItem side item) e' := by
  have placed := at_ side
  have walked : walk places (.openItem side item : Click φ) side =
      below (places side) item.name := if_pos rfl
  simp only [step] at stepped
  split at stepped
  · next shown =>
    refine follows_request at_ rfl ?_ ?_ (fun _ => Iff.rfl) stepped
    · rw [walked]
      exact placed.is.below (placed.slashless item shown.1)
    · rw [walked]
      exact placed.is.spell_below placed.path item.name
  · cases stepped

theorem step_parent {side : Side} (stepped : step disk e (.parent side) = some e') :
    Follows disk places e (.parent side) e' := by
  have placed := at_ side
  simp only [step, Explorer.parent, placed.path, placed.is.splitOn_spell] at stepped
  split at stepped
  · next deep =>
    have walked : walk places (.parent side : Click φ) side = above (places side) :=
      if_pos ⟨rfl, deep⟩
    have is : IsPlace (above (places side)) := placed.is.above deep
    rw [← placed.is.spell_above deep] at stepped
    refine follows_request at_ rfl ?_ ?_ (fun _ => and_iff_left deep) stepped
    · rwa [walked]
    · rw [walked, if_neg is.spell_ne_nil]
  · next few =>
    obtain rfl := Option.some.inj stepped
    exact follows_still at_ rfl fun other moved => few moved.2

theorem step_refresh {side : Side} (stepped : step disk e (.refresh side) = some e') :
    Follows disk places e (.refresh side) e' := by
  have placed := at_ side
  refine follows_request at_ rfl placed.is ?_ (fun _ => Iff.rfl) stepped
  rw [placed.path, if_neg placed.is.spell_ne_nil]
  rfl

theorem step_deleteItem {side : Side} {item : ShownItem}
    (stepped : step disk e (.deleteItem side item) = some e') :
    Follows disk places e (.deleteItem side item) e' := by
  have placed := at_ side
  simp only [step] at stepped
  split at stepped
  · unfold Explorer.deleteFile at stepped
    have empty := placed.is.fullPath_eq_nil_iff placed.path item.name
    split at stepped
    · next nothing =>
      obtain rfl := Option.some.inj stepped
      have none_ : deletes (places side) item = none := if_pos (empty.mp nothing)
      refine follows_still at_ ?_ fun other moved => moved.2 none_
      simp only [filesAfter, none_]
    · next named =>
      have some_ : deletes (places side) item = some (below (places side) item.name) :=
        if_neg (mt empty.mpr named)
      have path : toUtf8 (fullPath (e.pane side) item.name) =
          bytes (below (places side) item.name) := by
        rw [← toUtf8_spell, placed.is.spell_below placed.path, if_neg named]
      refine follows_request at_ ?_ placed.is ?_ (fun _ => and_iff_left ?_) stepped
      · simp only [filesAfter, some_, path]
      · rw [placed.path, if_neg placed.is.spell_ne_nil]
        rfl
      · rw [some_]
        exact Option.some_ne_none _
  · cases stepped

theorem step_appears {isConnected : Bool}
    (stepped : step disk e (.appears isConnected) = some e') :
    Follows disk places e (.appears isConnected) e' := by
  have here : spell [dot] = if dot = [] then dot else dot := rfl
  simp only [step, Option.bind_eq_bind, Option.bind_eq_some_iff] at stepped
  obtain ⟨between, first, second⟩ := stepped
  obtain ⟨sameFs, placed, shows_, others⟩ := request_spell here first
  split at second
  · next connected =>
    obtain ⟨sameFs', placed', shows', others'⟩ := request_spell here second
    have local_ : e'.pane .localPane = between.pane .localPane := others' _ (by decide)
    have walked : ∀ side, walk places (.appears isConnected : Click φ) side = [dot] :=
      fun _ => if_pos (.inr connected)
    refine ⟨sameFs'.trans sameFs, fun side => ?_, fun side _ => ?_, fun side stays =>
      absurd (.inr connected) stays⟩
    · rw [walked]
      cases side with
      | localPane =>
        rw [local_]
        exact ⟨isPlace_dot, placed, shows_.slashless⟩
      | remotePane => exact ⟨isPlace_dot, placed', shows'.slashless⟩
    · rw [walked]
      cases side with
      | localPane =>
        rw [local_, sameFs']
        exact shows_
      | remotePane => exact shows'
  · next offline =>
    obtain rfl := Option.some.inj second
    have only : ∀ other, relists places (.appears isConnected : Click φ) other ↔
        other = .localPane := fun other => or_iff_left offline
    refine follows_request at_ rfl ?_ ?_ only first
    · rw [walk, if_pos (.inl rfl)]
      exact isPlace_dot
    · rw [walk, if_pos (.inl rfl)]
      exact here

theorem step_follows {click : Click φ} (stepped : step disk e click = some e') :
    Follows disk places e click e' := by
  cases click with
  | typed side text => exact step_typed at_ stepped
  | openItem side item => exact step_openItem at_ stepped
  | parent side => exact step_parent at_ stepped
  | refresh side => exact step_refresh at_ stepped
  | deleteItem side item => exact step_deleteItem at_ stepped
  | appears isConnected => exact step_appears at_ stepped
  | changed fs =>
    obtain rfl := Option.some.inj stepped
    exact follows_still at_ rfl fun _ => id

end Step

/-! ### The panes over whole runs -/

theorem visited_concat (clicks : List (Click φ)) (click : Click φ) :
    visited (clicks ++ [click]) = walk (visited clicks) click := by
  rw [visited, List.foldl_append]
  rfl

theorem run_at {fs : φ} {clicks : List (Click φ)}
    (ran : Transitions.run (step disk) (start fs) clicks = some e) (side : Side) :
    At (visited clicks side) (e.pane side) := by
  induction clicks using List.reverseRecOn generalizing e side with
  | nil =>
    obtain rfl := Option.some.inj ran
    cases side <;> exact ⟨isPlace_dot, rfl, by simp [start, Explorer.pane]⟩
  | append_singleton clicks click ih =>
    rw [Transitions.run_concat, Option.bind_eq_some_iff] at ran
    obtain ⟨between, earlier, stepped⟩ := ran
    rw [visited_concat]
    exact (step_follows (ih earlier) stepped).at_ side

/-- What a pane shows was there at some point of the run. -/
theorem run_shows {fs : φ} {clicks : List (Click φ)} {side : Side}
    (ran : Transitions.run (step disk) (start fs) clicks = some e)
    (listed : (e.pane side).directoryList ≠ []) :
    ∃ before after e₀, clicks = before ++ after ∧
      Transitions.run (step disk) (start fs) before = some e₀ ∧
        Shows disk e₀.fs (visited clicks side) (e.pane side) := by
  induction clicks using List.reverseRecOn generalizing e with
  | nil =>
    obtain rfl := Option.some.inj ran
    cases side <;> exact absurd rfl listed
  | append_singleton clicks click ih =>
    have whole := ran
    rw [Transitions.run_concat, Option.bind_eq_some_iff] at ran
    obtain ⟨between, earlier, stepped⟩ := ran
    have follows := step_follows (run_at earlier) stepped
    rw [visited_concat]
    by_cases moved : relists (visited clicks) click side
    · exact ⟨clicks ++ [click], [], e, (List.append_nil _).symm, whole, follows.listed side moved⟩
    · rw [follows.kept side moved] at listed ⊢
      obtain ⟨before, after, e₀, rfl, reached, shows_⟩ := ih earlier listed
      rw [walk_of_not_relists moved]
      exact ⟨before, after ++ [click], e₀, List.append_assoc .., reached, shows_⟩

/-- Each pane's path spells where the clicks lead, and so do the bytes that the file system
gets; a pane that is listed shows what is found there, the other stays as it is, and only
a deletion changes the files. -/
theorem panes_follow_the_buttons {fs : φ} {clicks : List (Click φ)} {click : Click φ}
    (ran : Transitions.run (step disk) (start fs) clicks = some e)
    (stepped : step disk e click = some e') :
    e'.fs = filesAfter disk (visited clicks) e.fs click ∧
      ∀ side,
        (e'.pane side).currentPath = spell (visited (clicks ++ [click]) side) ∧
        toUtf8 (e'.pane side).currentPath = bytes (visited (clicks ++ [click]) side) ∧
        (relists (visited clicks) click side →
          Shows disk e'.fs (visited (clicks ++ [click]) side) (e'.pane side)) ∧
        (¬ relists (visited clicks) click side → e'.pane side = e.pane side) := by
  have follows := step_follows (run_at ran) stepped
  refine ⟨follows.files, fun side => ?_⟩
  have path := (follows.at_ side).path
  rw [visited_concat]
  refine ⟨path, ?_, follows.listed side, follows.kept side⟩
  rw [path, toUtf8_spell]

def box : Disk Bool where
  find full path :=
    if path = [0x2E] then .directory [⟨[0x64], true, false, none, some 1⟩]
    else if path = [0x64] ∧ full = true then .directory [⟨[0x65], false, true, some 5, some 3⟩]
    else if path = [0x64] then .directory []
    else .missing
  removeAll full path := if path = [0x64, 0x2F, 0x65] then false else full
  slashless := by
    intro full path entries found entry member
    split_ifs at found <;> cases found <;> simp_all

def shownDirectory : ShownItem := ⟨[0x64], 0, true, 1⟩
def shownFile : ShownItem := ⟨[0x65], 5, false, 3⟩

def atDot : Explorer Bool := ⟨true, ⟨dot, [shownDirectory]⟩, ⟨dot, []⟩⟩

def inside : Explorer Bool := ⟨true, ⟨[0x64], [shownFile]⟩, ⟨dot, []⟩⟩

theorem requestListing_one {path : QString} {entry : DirectoryEntry} {item : DirectoryItem}
    (some_ : path ≠ []) (found : box.find true (toUtf8 path) = .directory [entry])
    (asked : itemOf entry = some item) :
    requestListing box true path = some ⟨path, [shownItem item]⟩ := by
  have listed : listDirectory (some [entry]) = some [item] := by
    rw [listDirectory, (mapM_itemOf_cons entry [] [item]).mpr ⟨item, [], asked, rfl, rfl⟩,
      Option.map_some, sortItems, List.mergeSort_singleton]
  simp [requestListing, some_, found, Found.listing, listed]

theorem run_appears : Transitions.run (step box) (start true) [.appears false] = some atDot := by
  have listed := @requestListing_one dot ⟨[0x64], true, false, none, some 1⟩ ⟨[0x64], 0, true, 1⟩
    (by decide) rfl (by decide)
  have stepped : step box (start true) (.appears false) = some atDot := by
    simp only [step, Explorer.request, start, listed]
    rfl
  simp only [Transitions.run, List.foldlM_cons, List.foldlM_nil, stepped, Option.bind_eq_bind,
    Option.bind_some, Option.pure_def]

theorem step_opens : step box atDot (.openItem .localPane shownDirectory) = some inside :=
  congrArg (Option.map _) (@requestListing_one [0x64] ⟨[0x65], false, true, some 5, some 3⟩
    ⟨[0x65], 5, false, 3⟩ (by decide) rfl (by decide))

theorem panes_follow_the_buttons_opened :
    let clicks : List (Click Bool) := [.appears false, .openItem .localPane shownDirectory]
    inside.fs = true ∧ ∀ side,
      (inside.pane side).currentPath = spell (visited clicks side) ∧
      toUtf8 (inside.pane side).currentPath = bytes (visited clicks side) ∧
      (side = .localPane → Shows box true (visited clicks side) (inside.pane side)) ∧
      (side ≠ .localPane → inside.pane side = atDot.pane side) :=
  panes_follow_the_buttons run_appears step_opens

/-! ### Deleting -/

/-- The path of an entry of the directory at a place. -/
def entryPath (place : Place) (name : Name) : Name :=
  if place = [dot] then name else bytes place ++ 0x2F :: name

theorem bytes_below {place : Place} (is : IsPlace place) {name : QString} (some_ : name ≠ []) :
    bytes (below place name) = entryPath place (toUtf8 name) := by
  have here := @IsPlace.spell_below place is ⟨spell place, []⟩ rfl name
  have named : fullPath ⟨spell place, []⟩ name ≠ [] := fun empty =>
    some_ ((is.fullPath_eq_nil_iff rfl name).mp empty).2
  rw [← toUtf8_spell, here, if_neg named, fullPath, entryPath]
  by_cases atDot : place = [dot]
  · rw [if_pos (is.spell_eq_dot_iff.mpr atDot), if_pos atDot]
  · rw [if_neg (mt is.spell_eq_dot_iff.mp atDot), if_neg atDot, List.append_assoc,
      List.singleton_append, toUtf8_append_slash, toUtf8_spell]

/-- A deletion is of an entry that the pane's directory had when it was listed: if its name
is text, the path removed is the entry's, nothing else is asked of the file system, and the
directory is listed again. -/
theorem delete_removes_the_item {fs : φ} {clicks : List (Click φ)} {side : Side}
    {item : ShownItem} (ran : Transitions.run (step disk) (start fs) clicks = some e)
    (stepped : step disk e (.deleteItem side item) = some e') :
    ∃ before after e₀ entries entry, clicks = before ++ after ∧
      Transitions.run (step disk) (start fs) before = some e₀ ∧
      disk.find e₀.fs (bytes (visited clicks side)) = .directory entries ∧ entry ∈ entries ∧
      (itemOf entry).map shownItem = some item ∧
      ∀ text, text ≠ [] → survives text = true → entry.name = toUtf8 text →
        e'.fs = disk.removeAll e.fs (entryPath (visited clicks side) entry.name) ∧
        Shows disk e'.fs (visited clicks side) (e'.pane side) ∧
        ∀ other, other ≠ side → e'.pane other = e.pane other := by
  have at_ := run_at ran
  have follows := step_follows at_ stepped
  have shown : item ∈ (e.pane side).directoryList := by
    simp only [step] at stepped
    split at stepped
    · assumption
    · cases stepped
  obtain ⟨before, after, e₀, split, reached, shows_⟩ := run_shows ran (List.ne_nil_of_mem shown)
  obtain ⟨entries, entry, found, inEntries, made⟩ := shows_.entry shown
  refine ⟨before, after, e₀, entries, entry, split, reached, found, inEntries, made, ?_⟩
  intro text some_ readable named
  have name : item.name = text := by
    rw [name_of_shownItem made, fromStdString, named]
    exact fromUtf8_whole readable
  have some_' : deletes (visited clicks side) item =
      some (below (visited clicks side) item.name) :=
    if_neg fun nothing => some_ (name.symm.trans nothing.2)
  refine ⟨?_, follows.listed side ⟨rfl, by simp [some_']⟩, fun other differ =>
    follows.kept other fun moved => differ moved.1⟩
  rw [follows.files]
  simp only [filesAfter, some_']
  rw [name, bytes_below (at_ side).is some_, named]

theorem run_inside : Transitions.run (step box) (start true)
    [.appears false, .openItem .localPane shownDirectory] = some inside := by
  rw [← List.singleton_append, Transitions.run_append, run_appears]
  simp only [Option.bind_some, Transitions.run, List.foldlM_cons, List.foldlM_nil, step_opens,
    Option.bind_eq_bind, Option.pure_def]

theorem delete_removes_the_item_file :
    let clicks : List (Click Bool) := [.appears false, .openItem .localPane shownDirectory]
    let emptied : Explorer Bool := ⟨false, ⟨[0x64], []⟩, ⟨dot, []⟩⟩
    ∃ before after e₀ entries entry, clicks = before ++ after ∧
      Transitions.run (step box) (start true) before = some e₀ ∧
      box.find e₀.fs (bytes (visited clicks .localPane)) = .directory entries ∧ entry ∈ entries ∧
      (itemOf entry).map shownItem = some shownFile ∧
      ∀ text, text ≠ [] → survives text = true → entry.name = toUtf8 text →
        emptied.fs = box.removeAll inside.fs (entryPath (visited clicks .localPane) entry.name) ∧
        Shows box emptied.fs (visited clicks .localPane) (emptied.pane .localPane) ∧
        ∀ other, other ≠ Side.localPane → emptied.pane other = inside.pane other := by
  have listed : requestListing box false [0x64] = some ⟨[0x64], []⟩ := by
    have found : box.find false (toUtf8 [0x64]) = .directory [] := rfl
    simp [requestListing, found, Found.listing, listDirectory, sortItems]
  exact delete_removes_the_item run_inside (congrArg (Option.map _) listed)

end RemoteAccess.FileExplorer
