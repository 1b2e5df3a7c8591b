import Mathlib.Data.List.Sort

/-! Directory listings. A directory is what `directory_iterator` finds in it, in an order
that nothing fixes; the standard promises of `std::sort` only that its result is in order. -/

namespace RemoteAccess.DirectoryListing

/-- A `std::string`; it is compared byte by byte. -/
abbrev Name := List UInt8

structure DirectoryItem where
  name : Name
  size : UInt64
  isDirectory : Bool
  modifiedTime : UInt64
deriving DecidableEq

/-- What there is to ask of an entry; a question that throws is answered by `none`. -/
structure DirectoryEntry where
  name : Name
  isDirectory : Bool
  isRegularFile : Bool
  fileSize : Option UInt64
  lastWriteSeconds : Option Int
deriving DecidableEq

def askedSize (entry : DirectoryEntry) : Option UInt64 :=
  if !entry.isDirectory && entry.isRegularFile then entry.fileSize else some 0

/-- The body of the loop; its exception is `none`. -/
def itemOf (entry : DirectoryEntry) : Option DirectoryItem := do
  let size ← askedSize entry
  let seconds ← entry.lastWriteSeconds
  some {
    name := entry.name
    size := size
    isDirectory := entry.isDirectory
    modifiedTime := UInt64.ofInt seconds }

/-- The comparator given to `std::sort`. -/
def listsBefore (a b : DirectoryItem) : Bool :=
  if a.isDirectory != b.isDirectory then a.isDirectory && !b.isDirectory
  else decide (a.name < b.name)

/-- No item stands before one that has to come first. -/
def InOrder (items : List DirectoryItem) : Prop :=
  items.Pairwise fun a b => listsBefore b a = false

def sortItems (items : List DirectoryItem) : List DirectoryItem :=
  items.mergeSort fun a b => !listsBefore b a

/-- A target that is not there, or is no directory, has an empty listing. -/
def listDirectory (target : Option (List DirectoryEntry)) : Option (List DirectoryItem) :=
  match target with
  | none => some []
  | some entries => (entries.mapM itemOf).map sortItems

/-! ### The order -/

theorem listsBefore_eq_true_iff (a b : DirectoryItem) : listsBefore a b = true ↔
    (a.isDirectory = true ∧ b.isDirectory = false) ∨
      (a.isDirectory = b.isDirectory ∧ a.name < b.name) := by
  unfold listsBefore
  cases a.isDirectory <;> cases b.isDirectory <;> simp

theorem listsBefore_eq_false_iff (a b : DirectoryItem) : listsBefore a b = false ↔
    (b.isDirectory = true ∧ a.isDirectory = false) ∨
      (a.isDirectory = b.isDirectory ∧ ¬ a.name < b.name) := by
  rw [Bool.eq_false_iff, Ne, listsBefore_eq_true_iff]
  cases a.isDirectory <;> cases b.isDirectory <;> simp

theorem not_listsBefore_trans {a b c : DirectoryItem} (first : listsBefore b a = false)
    (second : listsBefore c b = false) : listsBefore c a = false := by
  rw [listsBefore_eq_false_iff] at first second ⊢
  obtain ⟨aDir, bFile⟩ | ⟨same, le⟩ := first
  · obtain ⟨bDir, -⟩ | ⟨same, -⟩ := second
    · rw [bFile] at bDir
      cases bDir
    · exact .inl ⟨aDir, same.trans bFile⟩
  · obtain ⟨bDir, cFile⟩ | ⟨same', le'⟩ := second
    · exact .inl ⟨same ▸ bDir, cFile⟩
    · refine .inr ⟨same'.trans same, ?_⟩
      exact List.not_lt.mpr (List.le_trans (List.not_lt.mp le) (List.not_lt.mp le'))

theorem not_listsBefore_total (a b : DirectoryItem) :
    listsBefore b a = false ∨ listsBefore a b = false := by
  by_cases before : listsBefore a b = true
  · left
    rw [listsBefore_eq_true_iff] at before
    rw [listsBefore_eq_false_iff]
    obtain here | ⟨same, less⟩ := before
    · exact .inl here
    · exact .inr ⟨same.symm, List.lt_asymm less⟩
  · exact .inr (Bool.eq_false_iff.mpr before)

theorem name_eq_of_not_listsBefore {a b : DirectoryItem} (first : listsBefore b a = false)
    (second : listsBefore a b = false) : a.name = b.name := by
  rw [listsBefore_eq_false_iff] at first second
  obtain ⟨bDir, aFile⟩ | ⟨same, le⟩ := first
  · obtain ⟨aDir, -⟩ | ⟨same, -⟩ := second
    · rw [aFile] at aDir
      cases aDir
    · rw [aFile, bDir] at same
      cases same
  · obtain ⟨aDir, bFile⟩ | ⟨-, ge⟩ := second
    · rw [aDir, bFile] at same
      cases same
    · exact List.le_antisymm (List.not_lt.mp le) (List.not_lt.mp ge)

theorem sortItems_perm (items : List DirectoryItem) : (sortItems items).Perm items :=
  List.mergeSort_perm items _

theorem sortItems_inOrder (items : List DirectoryItem) : InOrder (sortItems items) := by
  have sorted := @List.pairwise_mergeSort _ (fun a b => !listsBefore b a)
    (fun a b c first second => by
      simp only [Bool.not_eq_true'] at first second ⊢
      exact not_listsBefore_trans first second)
    (fun a b => by simpa using not_listsBefore_total a b) items
  exact sorted.imp (by simp)

theorem eq_of_inOrder {items other : List DirectoryItem} (distinct : (items.map (·.name)).Nodup)
    (same : other.Perm items) (sorted : InOrder items) (sorted' : InOrder other) :
    other = items := by
  refine same.eq_of_pairwise ?_ sorted' sorted
  intro a b inOther inItems first second
  have name := name_eq_of_not_listsBefore first second
  exact List.inj_on_of_nodup_map distinct (same.subset inOther) inItems name

/-! ### The listing -/

theorem name_of_itemOf {entry : DirectoryEntry} {item : DirectoryItem}
    (asked : itemOf entry = some item) :
    item.name = entry.name ∧ item.isDirectory = entry.isDirectory := by
  simp only [itemOf, Option.bind_eq_bind, Option.bind_eq_some_iff] at asked
  obtain ⟨size, -, seconds, -, made⟩ := asked
  obtain rfl := Option.some.inj made
  exact ⟨rfl, rfl⟩

theorem mapM_itemOf_cons (entry : DirectoryEntry) (entries : List DirectoryEntry)
    (items : List DirectoryItem) : (entry :: entries).mapM itemOf = some items ↔
      ∃ item rest, itemOf entry = some item ∧ entries.mapM itemOf = some rest ∧
        items = item :: rest := by
  simp only [List.mapM_cons, Option.bind_eq_bind, Option.bind_eq_some_iff, Option.pure_def,
    Option.some.injEq]
  constructor
  · rintro ⟨item, asked, rest, others, rfl⟩
    exact ⟨item, rest, asked, others, rfl⟩
  · rintro ⟨item, rest, asked, others, rfl⟩
    exact ⟨item, asked, rest, others, rfl⟩

theorem names_of_mapM {entries : List DirectoryEntry} {items : List DirectoryItem}
    (asked : entries.mapM itemOf = some items) : items.map (·.name) = entries.map (·.name) := by
  induction entries generalizing items with
  | nil =>
    obtain rfl := Option.some.inj asked
    rfl
  | cons entry entries ih =>
    obtain ⟨item, rest, here, others, rfl⟩ := (mapM_itemOf_cons entry entries items).mp asked
    rw [List.map_cons, List.map_cons, (name_of_itemOf here).1, ih others]

theorem entry_of_mapM {entries : List DirectoryEntry} {items : List DirectoryItem}
    (asked : entries.mapM itemOf = some items) {item : DirectoryItem} (member : item ∈ items) :
    ∃ entry ∈ entries, itemOf entry = some item := by
  induction entries generalizing items with
  | nil =>
    obtain rfl := Option.some.inj asked
    cases member
  | cons entry entries ih =>
    obtain ⟨first, rest, here, others, rfl⟩ := (mapM_itemOf_cons entry entries items).mp asked
    obtain rfl | later := List.mem_cons.mp member
    · exact ⟨entry, List.mem_cons_self, here⟩
    · obtain ⟨found, among, asked'⟩ := ih others later
      exact ⟨found, List.mem_cons_of_mem entry among, asked'⟩

theorem mapM_itemOf_perm {entries seen : List DirectoryEntry} (same : seen.Perm entries)
    {items : List DirectoryItem} (asked : entries.mapM itemOf = some items) :
    ∃ found, seen.mapM itemOf = some found ∧ found.Perm items := by
  induction same generalizing items with
  | nil => exact ⟨items, asked, .refl items⟩
  | cons entry _ ih =>
    obtain ⟨item, rest, here, others, rfl⟩ := (mapM_itemOf_cons _ _ _).mp asked
    obtain ⟨found, again, perm⟩ := ih others
    exact ⟨item :: found, (mapM_itemOf_cons _ _ _).mpr ⟨item, found, here, again, rfl⟩,
      perm.cons item⟩
  | swap first second entries =>
    obtain ⟨item, rest, here, others, rfl⟩ := (mapM_itemOf_cons _ _ _).mp asked
    obtain ⟨next, more, there, beyond, rfl⟩ := (mapM_itemOf_cons _ _ _).mp others
    refine ⟨next :: item :: more, ?_, .swap item next more⟩
    exact (mapM_itemOf_cons _ _ _).mpr ⟨next, item :: more, there,
      (mapM_itemOf_cons _ _ _).mpr ⟨item, more, here, beyond, rfl⟩, rfl⟩
  | trans _ _ first second =>
    obtain ⟨between, asked', perm'⟩ := second asked
    obtain ⟨found, again, perm⟩ := first asked'
    exact ⟨found, again, perm.trans perm'⟩

theorem listDirectory_some {entries : List DirectoryEntry} {items : List DirectoryItem}
    (listed : listDirectory (some entries) = some items) :
    ∃ found, entries.mapM itemOf = some found ∧ items = sortItems found := by
  obtain ⟨found, asked, rfl⟩ := Option.map_eq_some_iff.mp listed
  exact ⟨found, asked, rfl⟩

/-- A listing depends neither on the order in which the entries are found nor on how
`std::sort` works: it has an item for each entry, directories first, each group by name. -/
theorem listing_canonical {entries seen : List DirectoryEntry} {items : List DirectoryItem}
    (distinct : (entries.map (·.name)).Nodup) (same : seen.Perm entries)
    (listed : listDirectory (some entries) = some items) :
    listDirectory (some seen) = some items ∧
      (∀ result : List DirectoryItem, result.Perm items → InOrder result → result = items) ∧
      (items.map (·.name)).Perm (entries.map (·.name)) ∧
      items.Pairwise (fun a b => listsBefore a b = true) := by
  obtain ⟨found, asked, rfl⟩ := listDirectory_some listed
  have names : ((sortItems found).map (·.name)).Perm (entries.map (·.name)) := by
    rw [← names_of_mapM asked]
    exact (sortItems_perm found).map _
  have distinct' : ((sortItems found).map (·.name)).Nodup := names.nodup_iff.mpr distinct
  have unique : ∀ result : List DirectoryItem, result.Perm (sortItems found) → InOrder result →
      result = sortItems found := fun result perm sorted =>
    eq_of_inOrder distinct' perm (sortItems_inOrder found) sorted
  obtain ⟨found', asked', perm⟩ := mapM_itemOf_perm same asked
  refine ⟨?_, unique, names, ?_⟩
  · have again : sortItems found' = sortItems found :=
      unique _ ((sortItems_perm found').trans (perm.trans (sortItems_perm found).symm))
        (sortItems_inOrder found')
    rw [listDirectory, asked', Option.map_some, again]
  · have different : (sortItems found).Pairwise fun a b => a.name ≠ b.name :=
      List.pairwise_map.mp distinct'
    refine ((sortItems_inOrder found).and different).imp ?_
    rintro a b ⟨inOrder, differ⟩
    by_contra unordered
    exact differ (name_eq_of_not_listsBefore inOrder (Bool.eq_false_iff.mpr unordered))

theorem listing_canonical_three :
    let a : DirectoryEntry := ⟨[0x61], false, true, some 3, some 7⟩
    let b : DirectoryEntry := ⟨[0x62], true, false, none, some 9⟩
    let c : DirectoryEntry := ⟨[0x63], false, false, none, some (-1)⟩
    listDirectory (some [c, a, b]) = some [⟨[0x62], 0, true, 9⟩, ⟨[0x61], 3, false, 7⟩,
      ⟨[0x63], 0, false, UInt64.ofInt (-1)⟩] := by
  intro a b c
  have listed : listDirectory (some [b, a, c]) = some [⟨[0x62], 0, true, 9⟩,
      ⟨[0x61], 3, false, 7⟩, ⟨[0x63], 0, false, UInt64.ofInt (-1)⟩] := by
    exact congrArg some (List.mergeSort_of_pairwise (by decide))
  exact (listing_canonical (by decide) (by decide) listed).1

end RemoteAccess.DirectoryListing
