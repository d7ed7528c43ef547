/-
  DexWeave/Proofs/CacheEntry.lean --- entries of a cache in a directory.

  WHAT THIS FILE IS FOR.  An entry is a file in the directory of the cache, under a name made
  from the class.  What was written is read back, and no other entry changes, whether the
  writing succeeds or fails: the temporary file is never an entry, and classes without dots in
  their names never share one.

  HOW.  The part that is joined to the directory is one name without a slash, so the places of
  an entry and of its temporary file are the directory and one name behind it.  Reading looks
  at a place and at the directories that lead to it, which a write leaves alone.
-/
import DexWeave.Cache
import DexWeave.Proofs.Fallible
import Mathlib.Data.List.Infix

set_option autoImplicit false

namespace DexWeave

open Fallible

/-! ## Caches with keys -/

/-- A cache that holds one entry for each key: what was written is read back, and entries of other
keys stay as they are. -/
structure ClassCache.Keyed {φ κ : Type} (cache : ClassCache φ) (key : ClassName → κ) : Prop where
  read_write : ∀ {store c bytes}, (cache.write store c bytes).1 = .ok () →
    cache.read (cache.write store c bytes).2 c = .ok (some bytes)
  read_write_of_ne : ∀ {c c'}, key c' ≠ key c → ∀ store bytes,
    cache.read (cache.write store c bytes).2 c' = cache.read store c'
  /-- An entry that is found after a writing was found before, or is what was written. -/
  of_read_write : ∀ {store c c' bytes content},
    cache.read (cache.write store c bytes).2 c' = .ok (some content) →
      cache.read store c' = .ok (some content) ∨ key c' = key c ∧ content = bytes

/-! ## Paths -/

namespace Path

theorem cut_ne_nil (cs : List Char) : cut cs ≠ [] := by
  cases cs with
  | nil => exact List.cons_ne_nil _ _
  | cons c cs =>
    by_cases hc : c = '/'
    · subst hc
      exact List.cons_ne_nil _ _
    · rw [cut]
      · split <;> exact List.cons_ne_nil _ _
      · exact hc

theorem cut_cons {c : Char} (hc : c ≠ '/') {cs first : List Char} {others : List (List Char)}
    (h : cut cs = first :: others) : cut (c :: cs) = (c :: first) :: others := by
  rw [cut]
  · rw [h]
  · exact hc

theorem cut_append_slash (as bs : List Char) : cut (as ++ '/' :: bs) = cut as ++ cut bs := by
  induction as with
  | nil => rfl
  | cons a as ih =>
    by_cases ha : a = '/'
    · subst ha
      exact congrArg ([] :: ·) ih
    · obtain ⟨first, others, hcut⟩ := List.exists_cons_of_ne_nil (cut_ne_nil as)
      rw [hcut, List.cons_append] at ih
      rw [List.cons_append, cut_cons ha ih, cut_cons ha hcut, List.cons_append]

theorem cut_of_no_slash {cs : List Char} (h : '/' ∉ cs) : cut cs = [cs] := by
  induction cs with
  | nil => rfl
  | cons c cs ih =>
    obtain ⟨hc, hcs⟩ := not_or.mp (mt List.mem_cons.mpr h)
    exact cut_cons (Ne.symm hc) (ih hcs)

/-- A name does not start at the root. -/
theorem not_isAbsolute {name : String} (hslash : '/' ∉ name.toList) :
    ¬ (⟨name⟩ : Path).isAbsolute = true := by
  intro habsolute
  exact hslash (List.mem_of_mem_head? (by simpa [isAbsolute] using habsolute))

/-- A name that is joined to a path is one more component, unless it leads nowhere. -/
theorem components_join_of_no_slash (p : Path) {name : String} (hslash : '/' ∉ name.toList) :
    (p.join ⟨name⟩).components =
      p.components ++ [name].filter fun part => part ≠ "" ∧ part ≠ "." := by
  have hlast : ((cut name.toList).map String.ofList).filter
      (fun part => part ≠ "" ∧ part ≠ ".") = [name].filter fun part => part ≠ "" ∧ part ≠ "." := by
    rw [cut_of_no_slash hslash, List.map_singleton, String.ofList_toList]
  have hslashed : ∀ cs : List Char,
      ((cut (cs ++ '/' :: name.toList)).map String.ofList).filter
          (fun part => part ≠ "" ∧ part ≠ ".") =
        ((cut cs).map String.ofList).filter (fun part => part ≠ "" ∧ part ≠ ".") ++
          [name].filter fun part => part ≠ "" ∧ part ≠ "." := by
    intro cs
    rw [cut_append_slash, List.map_append, List.filter_append, hlast]
  rw [join, if_neg (not_isAbsolute hslash)]
  split
  · rename_i htakes
    rw [components, components, String.toList_append]
    rcases List.eq_nil_or_concat' p.text.toList with hp | ⟨front, last, hp⟩
    · rw [hp, List.nil_append, hlast]
      rfl
    · -- the path ends in a slash, behind which there is an empty part
      have hend : last = '/' := by simpa [takesPart, hp] using htakes
      subst hend
      rw [hp, List.append_assoc, List.singleton_append, hslashed, cut_append_slash]
      simp [cut]
  · rw [components, components, String.toList_append, String.toList_append, List.append_assoc]
    exact hslashed p.text.toList

theorem components_join (p : Path) {name : String} (hslash : '/' ∉ name.toList)
    (hempty : name ≠ "") (hdot : name ≠ ".") :
    (p.join ⟨name⟩).components = p.components ++ [name] := by
  rw [components_join_of_no_slash p hslash,
    List.filter_cons_of_pos (by simpa using And.intro hempty hdot), List.filter_nil]

end Path

/-! ## Places -/

namespace FileTree

variable {t t' : FileTree} {place other : Place} {content : Bytes}

theorem mem_ancestors : other ∈ ancestors place ↔ ∃ n < place.length, place.take n = other := by
  simp [ancestors]

/-- What leads to a place is shorter than the places beside it. -/
theorem not_prefix_of_mem_ancestors {beside : Place} (h : other ∈ ancestors place)
    (hlength : beside.length = place.length) : ¬ beside <+: other := by
  obtain ⟨n, hn, rfl⟩ := mem_ancestors.mp h
  intro hprefix
  have hle := hprefix.length_le
  rw [List.length_take] at hle
  omega

theorem forM_enter_congr {places : List Place} (h : ∀ p ∈ places, t.node? p = t'.node? p) :
    forM places t.enter = forM places t'.enter := by
  induction places with
  | nil => rfl
  | cons p places ih =>
    have hp : t.enter p = t'.enter p := by rw [enter, enter, h p List.mem_cons_self]
    rw [List.forM_cons, List.forM_cons, hp, ih fun q hq => h q (List.mem_cons_of_mem _ hq)]

theorem walk_congr (h : ∀ p ∈ ancestors place, t.node? p = t'.node? p) :
    t.walk place = t'.walk place := by
  simp only [walk, List.forM_eq_forM, forM_enter_congr h]

theorem read_congr (h : ∀ p ∈ ancestors place, t.node? p = t'.node? p)
    (hplace : t.node? place = t'.node? place) : t.read place = t'.read place := by
  rw [read, read, walk_congr h, hplace]

theorem read_eq_ok_iff :
    t.read place = .ok content ↔
      t.walk place = .ok () ∧ t.node? place = some (.file content) := by
  rw [read, bind_eq_ok]
  constructor
  · rintro ⟨⟨⟩, hwalk, h⟩
    split at h
    · rename_i hnode
      obtain rfl := Except.ok.inj h
      exact ⟨hwalk, hnode⟩
    · cases h
    · cases h
  · rintro ⟨hwalk, hnode⟩
    exact ⟨(), hwalk, by rw [hnode]⟩

theorem write_eq_ok_iff :
    t.write place content = .ok t' ↔
      t.walk place = .ok () ∧ t.node? place ≠ some .directory ∧
        t' = t.put place (.file content) := by
  rw [write, bind_eq_ok]
  constructor
  · rintro ⟨⟨⟩, hwalk, h⟩
    split at h
    · cases h
    · rename_i hnode
      exact ⟨hwalk, hnode, (Except.ok.inj h).symm⟩
  · rintro ⟨hwalk, hnode, rfl⟩
    refine ⟨(), hwalk, ?_⟩
    split
    · contradiction
    · rfl

theorem rename_eq_ok_iff {source target : Place} :
    t.rename source target = .ok t' ↔
      ∃ content, t.read source = .ok content ∧ t.walk target = .ok () ∧
        t.node? target ≠ some .directory ∧
        t' = (t.remove source).put target (.file content) := by
  rw [rename, bind_eq_ok]
  refine exists_congr fun content => and_congr_right fun _ => ?_
  rw [bind_eq_ok]
  constructor
  · rintro ⟨⟨⟩, hwalk, h⟩
    split at h
    · cases h
    · rename_i hnode
      exact ⟨hwalk, hnode, (Except.ok.inj h).symm⟩
  · rintro ⟨hwalk, hnode, rfl⟩
    refine ⟨(), hwalk, ?_⟩
    split
    · contradiction
    · rfl

/-- A directory is there already, or is put where nothing was. -/
theorem createDirectory_eq_ok (h : t.createDirectory place = .ok t') :
    t' = t ∨ t.node? place = none ∧ t' = t.put place .directory := by
  rw [createDirectory] at h
  split at h
  · split at h
    · exact .inl (Except.ok.inj h).symm
    · cases h
    · rename_i hnode
      exact .inr ⟨hnode, (Except.ok.inj h).symm⟩
  · cases h

/-- Making directories makes no files. -/
theorem node?_of_createDirectory (h : t.createDirectory place = .ok t')
    (hfile : t'.node? other = some (.file content)) : t.node? other = some (.file content) := by
  rcases createDirectory_eq_ok h with rfl | ⟨-, rfl⟩
  · exact hfile
  · by_cases hother : other = []
    · rw [node?, if_pos hother] at hfile
      cases hfile
    · rw [node?_put hother] at hfile
      split at hfile
      · cases hfile
      · exact hfile

theorem node?_of_foldlM_createDirectory {places : List Place}
    (h : places.foldlM createDirectory t = .ok t')
    (hfile : t'.node? other = some (.file content)) : t.node? other = some (.file content) := by
  induction places generalizing t with
  | nil =>
    obtain rfl := Except.ok.inj h
    exact hfile
  | cons place places ih =>
    obtain ⟨made, hmade, h⟩ := bind_eq_ok.mp h
    exact node?_of_createDirectory hmade (ih h)

theorem node?_of_createDirectories (h : t.createDirectories place = .ok t')
    (hfile : t'.node? other = some (.file content)) : t.node? other = some (.file content) :=
  node?_of_foldlM_createDirectory h hfile

end FileTree

/-! ## Entries -/

namespace Cache

variable {root : Path} {t : FileTree} {c c' : ClassName} {bs content : Bytes}

theorem toList_entryName (c : ClassName) :
    (entryName c).toList =
      (c.text.toList.map fun x => if x = '/' then '.' else x) ++ ['.', 'd', 'e', 'x'] := by
  rw [entryName, String.toList_append, String.toList_ofList]
  rfl

theorem slash_not_mem_entryName (c : ClassName) : '/' ∉ (entryName c).toList := by
  rw [toList_entryName, List.mem_append, List.mem_map]
  rintro (⟨x, -, hx⟩ | h)
  · split at hx
    · exact absurd hx (by decide)
    · contradiction
  · exact absurd h (by decide)

/-- Only slashes become dots, so names without dots have entries of their own. -/
theorem entryName_injective_of_no_dot (h : '.' ∉ c.text.toList) (h' : '.' ∉ c'.text.toList)
    (heq : entryName c = entryName c') : c = c' := by
  have hback : ∀ cs : List Char, '.' ∉ cs →
      (cs.map fun x => if x = '/' then '.' else x).map (fun x => if x = '.' then '/' else x) =
        cs := by
    intro cs hcs
    rw [List.map_map]
    refine (List.map_congr_left fun x hx => ?_).trans (List.map_id cs)
    have hne : x ≠ '.' := fun hx' => hcs (hx' ▸ hx)
    by_cases hslash : x = '/' <;> simp [hslash, hne]
  have hchars := congrArg String.toList heq
  rw [toList_entryName, toList_entryName] at hchars
  have htext : c.text.toList = c'.text.toList := by
    rw [← hback _ h, List.append_cancel_right hchars, hback _ h']
  exact congrArg ClassName.mk (String.toList_injective htext)

theorem getLast?_entryName (c : ClassName) : (entryName c).toList.getLast? = some 'x' := by
  rw [toList_entryName, List.getLast?_append]
  rfl

/-- The place of the entry of a class in a directory. -/
def entryPlace (directory : Place) (c : ClassName) : Place := directory ++ [entryName c]

theorem components_entryPath (root : Path) (c : ClassName) :
    (entryPath root c).components = entryPlace root.components c := by
  have hlast := getLast?_entryName c
  refine Path.components_join root (slash_not_mem_entryName c) ?_ ?_
  · intro h
    rw [h] at hlast
    exact absurd hlast (by decide)
  · intro h
    rw [h] at hlast
    exact absurd hlast (by decide)

theorem readEntry_eq (root : Path) (t : FileTree) (c : ClassName) :
    readEntry root t c =
      match t.read (entryPlace root.components c) with
      | .ok bs => .ok (some bs)
      | .error .notFound => .ok none
      | .error e => .error e := by
  unfold readEntry
  cases hread : t.read (entryPlace root.components c) with
  | ok bs => simp only [components_entryPath, hread]
  | error e => cases e <;> simp only [components_entryPath, hread]

/-! ## Temporary files -/

theorem mem_stem {name : String} {x : Char} (h : x ∈ (stem name).toList) : x ∈ name.toList := by
  rw [stem] at h
  split at h
  · exact h
  · rw [String.toList_ofList, List.mem_reverse] at h
    exact List.mem_reverse.mp
      ((List.dropWhile_sublist _).mem ((List.drop_sublist _ _).mem h))

/-- The name of a temporary file is one component, and that of no entry. -/
structure IsTemporary (name : String) : Prop where
  no_slash : '/' ∉ name.toList
  ne_empty : name ≠ ""
  ne_dot : name ≠ "."
  ne_entryName : ∀ c, name ≠ entryName c

theorem isTemporary_temporaryName (c : ClassName) :
    IsTemporary (temporaryName (entryName c)) := by
  rw [temporaryName]
  split
  · refine ⟨by decide, by decide, by decide, fun c' h => ?_⟩
    have hlast := getLast?_entryName c'
    rw [← h] at hlast
    exact absurd hlast (by decide)
  · have hlast : (stem (entryName c) ++ ".dex.tmp").toList.getLast? = some 'p' := by
      rw [String.toList_append, List.getLast?_append]
      rfl
    refine ⟨?_, ?_, ?_, fun c' h => ?_⟩
    · rw [String.toList_append, List.mem_append]
      rintro (h | h)
      · exact slash_not_mem_entryName c (mem_stem h)
      · exact absurd h (by decide)
    · intro h
      rw [h] at hlast
      exact absurd hlast (by decide)
    · intro h
      rw [h] at hlast
      exact absurd hlast (by decide)
    · rw [h, getLast?_entryName c'] at hlast
      exact absurd hlast (by decide)

/-- The place an entry is written to before it is renamed. -/
def temporaryPlace (directory : Place) (c : ClassName) : Place :=
  directory ++ [temporaryName (entryName c)]

theorem components_temporaryPath (root : Path) (c : ClassName) :
    (temporaryPath root c).components = temporaryPlace root.components c :=
  have h := isTemporary_temporaryName c
  Path.components_join root h.no_slash h.ne_empty h.ne_dot

variable {directory other : Place}

theorem entryPlace_ne_nil (directory : Place) (c : ClassName) : entryPlace directory c ≠ [] :=
  List.append_ne_nil_of_right_ne_nil _ (List.cons_ne_nil _ _)

theorem temporaryPlace_ne_nil (directory : Place) (c : ClassName) :
    temporaryPlace directory c ≠ [] :=
  List.append_ne_nil_of_right_ne_nil _ (List.cons_ne_nil _ _)

theorem entryPlace_ne_temporaryPlace (directory other : Place) (c c' : ClassName) :
    entryPlace directory c ≠ temporaryPlace other c' := by
  intro h
  rw [entryPlace, temporaryPlace, List.append_singleton_inj] at h
  exact (isTemporary_temporaryName c').ne_entryName c h.2.symm

theorem entryName_of_entryPlace_eq (h : entryPlace directory c = entryPlace other c') :
    entryName c = entryName c' := by
  rw [entryPlace, entryPlace, List.append_singleton_inj] at h
  exact h.2

/-! ## Writing -/

/-- What writing an entry does to the files: nothing, or the temporary file is there, or it has
become the entry. -/
inductive Written (directory : Place) (t : FileTree) (c : ClassName) (bs : Bytes) :
    Except FileError Unit × FileTree → Prop where
  | refused (e : FileError) : Written directory t c bs (.error e, t)
  | notRenamed (e : FileError) :
    Written directory t c bs (.error e, t.put (temporaryPlace directory c) (.file bs))
  | renamed
    (hwalk : (t.put (temporaryPlace directory c) (.file bs)).walk (entryPlace directory c) =
      .ok ()) :
    Written directory t c bs
      (.ok (), ((t.put (temporaryPlace directory c) (.file bs)).remove
        (temporaryPlace directory c)).put (entryPlace directory c) (.file bs))

theorem written_writeEntry (root : Path) (t : FileTree) (c : ClassName) (bs : Bytes) :
    Written root.components t c bs (writeEntry root t c bs) := by
  unfold writeEntry
  simp only [components_temporaryPath, components_entryPath]
  cases hwrite : t.write (temporaryPlace root.components c) bs with
  | error e => exact .refused e
  | ok t₁ =>
    obtain ⟨-, -, rfl⟩ := FileTree.write_eq_ok_iff.mp hwrite
    dsimp only
    cases hrename : (t.put (temporaryPlace root.components c) (.file bs)).rename
        (temporaryPlace root.components c) (entryPlace root.components c) with
    | error e => exact .notRenamed e
    | ok t₂ =>
      obtain ⟨content, hread, hwalk, -, rfl⟩ := FileTree.rename_eq_ok_iff.mp hrename
      obtain ⟨-, hnode⟩ := FileTree.read_eq_ok_iff.mp hread
      rw [FileTree.node?_put (temporaryPlace_ne_nil _ _), if_pos rfl] at hnode
      obtain rfl : bs = content := by simpa using hnode
      exact .renamed hwalk

/-- What the writing of an entry leaves at a place that is neither the temporary file, nor below
it, nor the entry. -/
theorem Written.node?_eq {out : Except FileError Unit × FileTree}
    (h : Written directory t c bs out) (htemporary : ¬ temporaryPlace directory c <+: other)
    (hentry : other ≠ entryPlace directory c) : out.2.node? other = t.node? other := by
  by_cases hother : other = []
  · rw [FileTree.node?, FileTree.node?, if_pos hother, if_pos hother]
  have hne : other ≠ temporaryPlace directory c := fun heq => htemporary (heq ▸ List.prefix_rfl)
  have hput : (t.put (temporaryPlace directory c) (.file bs)).node? other = t.node? other := by
    rw [FileTree.node?_put hother, if_neg hne]
  cases h with
  | refused e => rfl
  | notRenamed e => exact hput
  | renamed hwalk =>
    have hprefix : (temporaryPlace directory c).isPrefixOf other = false := by
      rw [← Bool.not_eq_true, List.isPrefixOf_iff_prefix]
      exact htemporary
    rw [FileTree.node?_put hother, if_neg hentry, FileTree.node?_remove hother, hprefix]
    exact hput

theorem length_temporaryPlace (directory : Place) (c c' : ClassName) :
    (temporaryPlace directory c).length = (entryPlace directory c').length := by
  rw [temporaryPlace, entryPlace, List.length_append, List.length_append, List.length_singleton,
    List.length_singleton]

theorem length_entryPlace (directory : Place) (c c' : ClassName) :
    (entryPlace directory c).length = (entryPlace directory c').length := by
  rw [entryPlace, entryPlace, List.length_append, List.length_append, List.length_singleton,
    List.length_singleton]

/-- Nothing changes on the way to the entries. -/
theorem Written.node?_of_mem_ancestors {out : Except FileError Unit × FileTree}
    (h : Written directory t c bs out) (c' : ClassName)
    (hother : other ∈ FileTree.ancestors (entryPlace directory c')) :
    out.2.node? other = t.node? other := by
  refine h.node?_eq ?_ fun heq => ?_
  · exact FileTree.not_prefix_of_mem_ancestors hother (length_temporaryPlace directory c c')
  · exact FileTree.not_prefix_of_mem_ancestors hother (length_entryPlace directory c c')
      (heq ▸ List.prefix_rfl)

theorem not_temporaryPlace_isPrefix (directory : Place) (c c' : ClassName) :
    ¬ temporaryPlace directory c <+: entryPlace directory c' := by
  intro h
  have heq := h.eq_of_length (length_temporaryPlace directory c c')
  exact entryPlace_ne_temporaryPlace directory directory c' c heq.symm

/-- Writing leaves the entries of other classes as they are. -/
theorem readEntry_writeEntry_of_ne (root : Path) (t : FileTree) (bs : Bytes)
    (h : entryName c' ≠ entryName c) :
    readEntry root (writeEntry root t c bs).2 c' = readEntry root t c' := by
  have hwritten := written_writeEntry root t c bs
  have hread : (writeEntry root t c bs).2.read (entryPlace root.components c') =
      t.read (entryPlace root.components c') :=
    FileTree.read_congr (fun p hp => hwritten.node?_of_mem_ancestors c' hp)
      (hwritten.node?_eq (not_temporaryPlace_isPrefix _ _ _)
        fun heq => h (entryName_of_entryPlace_eq heq))
  rw [readEntry_eq, readEntry_eq, hread]

/-- What was written is read back. -/
theorem readEntry_writeEntry (h : (writeEntry root t c bs).1 = .ok ()) :
    readEntry root (writeEntry root t c bs).2 c = .ok (some bs) := by
  have hwritten := written_writeEntry root t c bs
  rw [readEntry_eq]
  generalize writeEntry root t c bs = out at h hwritten
  have hread : out.2.read (entryPlace root.components c) = .ok bs := by
    rw [FileTree.read_eq_ok_iff]
    have hafter : ∀ p ∈ FileTree.ancestors (entryPlace root.components c),
        out.2.node? p = t.node? p := fun _ hp => hwritten.node?_of_mem_ancestors c hp
    have htemporary : Written root.components t c bs
        (.error .notFound, t.put (temporaryPlace root.components c) (.file bs)) := .notRenamed _
    have hbetween : ∀ p ∈ FileTree.ancestors (entryPlace root.components c),
        (t.put (temporaryPlace root.components c) (.file bs)).node? p = t.node? p :=
      fun _ hp => htemporary.node?_of_mem_ancestors c hp
    cases hwritten with
    | refused e | notRenamed e => cases h
    | renamed hwalk =>
      constructor
      · rw [← hwalk]
        exact FileTree.walk_congr fun p hp => (hafter p hp).trans (hbetween p hp).symm
      · rw [FileTree.node?_put (entryPlace_ne_nil _ _), if_pos rfl]
  rw [hread]

/-- A file that stands where an entry would, after a writing, stood there before or is what was
written. -/
theorem node?_entryPlace_of_writeEntry
    (h : (writeEntry root t c bs).2.node? (entryPlace directory c') = some (.file content)) :
    t.node? (entryPlace directory c') = some (.file content) ∨
      entryName c' = entryName c ∧ content = bs := by
  have hne := entryPlace_ne_nil directory c'
  have htemporary := entryPlace_ne_temporaryPlace directory root.components c' c
  have hwritten := written_writeEntry root t c bs
  generalize writeEntry root t c bs = out at h hwritten
  cases hwritten with
  | refused e => exact .inl h
  | notRenamed e =>
    rw [FileTree.node?_put hne, if_neg htemporary] at h
    exact .inl h
  | renamed hwalk =>
    rw [FileTree.node?_put hne] at h
    split at h
    · rename_i heq
      refine .inr ⟨entryName_of_entryPlace_eq heq, ?_⟩
      simpa [eq_comm] using h
    · rw [FileTree.node?_remove hne] at h
      split at h
      · cases h
      · rw [FileTree.node?_put hne, if_neg htemporary] at h
        exact .inl h

theorem readEntry_eq_ok_some_iff :
    readEntry root t c = .ok (some bs) ↔ t.read (entryPlace root.components c) = .ok bs := by
  rw [readEntry_eq]
  split
  · rename_i content hread
    rw [hread, Except.ok.injEq, Option.some.injEq, Except.ok.injEq]
  · rename_i hread
    rw [hread]
    exact ⟨nofun, nofun⟩
  · rename_i e _ hread
    rw [hread]
    exact ⟨nofun, nofun⟩

theorem node?_of_readEntry (h : readEntry root t c = .ok (some bs)) :
    t.node? (entryPlace root.components c) = some (.file bs) :=
  (FileTree.read_eq_ok_iff.mp (readEntry_eq_ok_some_iff.mp h)).2

/-- An entry that is read after a writing was there before, or is what was written. -/
theorem readEntry_of_writeEntry
    (h : readEntry root (writeEntry root t c bs).2 c' = .ok (some content)) :
    readEntry root t c' = .ok (some content) ∨ entryName c' = entryName c ∧ content = bs := by
  obtain ⟨hwalk, hnode⟩ := FileTree.read_eq_ok_iff.mp (readEntry_eq_ok_some_iff.mp h)
  refine (node?_entryPlace_of_writeEntry hnode).imp_left fun hbefore => ?_
  rw [readEntry_eq_ok_some_iff, FileTree.read_eq_ok_iff]
  refine ⟨?_, hbefore⟩
  rw [← hwalk]
  exact FileTree.walk_congr fun p hp =>
    ((written_writeEntry root t c bs).node?_of_mem_ancestors c' hp).symm

theorem read_inDirectory (root : Path) : (inDirectory root).read = readEntry root := by
  rw [inDirectory]

theorem write_inDirectory (root : Path) : (inDirectory root).write = writeEntry root := by
  rw [inDirectory]

/-- The cache in a directory holds one entry for each file name. -/
theorem keyed_inDirectory (root : Path) : (inDirectory root).Keyed entryName where
  read_write := by
    intro store c bytes h
    simp only [read_inDirectory, write_inDirectory] at h ⊢
    exact readEntry_writeEntry h
  read_write_of_ne := by
    intro c c' h store bytes
    simp only [read_inDirectory, write_inDirectory]
    exact readEntry_writeEntry_of_ne root store bytes h
  of_read_write := by
    intro store c c' bytes content h
    simp only [read_inDirectory, write_inDirectory] at h ⊢
    exact readEntry_of_writeEntry h

end Cache

end DexWeave
