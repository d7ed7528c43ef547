/-
  DexWeave/Proofs/CacheMap.lean --- a cache in a directory is a map from file names.

  WHAT THIS FILE IS FOR.  Entries are written one after the other to an empty directory, and
  any of the writings may fail: by itself, or because the system stops it, with anything left
  in the temporary file.  What is then read for a class is what was last stored under the file
  name of the class.

  WHAT DOES NOT HOLD.  The map is not one from classes: slashes become dots, and dots stay, so
  the classes `a/b` and `a.b` have one entry, and each is read the bytes of the other.

  HOW.  What a single writing does to all the entries is a law of caches.  That every entry is
  what the record of the writings says is kept by each of them, and so holds after all.
-/
import DexWeave.Proofs.CacheAgreement

set_option autoImplicit false

namespace DexWeave

open Fallible

/-! ## Caches as maps -/

/-- A cache that is a map from keys: entries are found by their key alone, and a writing that
fails changes none. -/
structure ClassCache.Atomic {φ κ : Type} (cache : ClassCache φ) (key : ClassName → κ) : Prop
    extends cache.Keyed key where
  read_congr : ∀ {c c'}, key c' = key c → ∀ store, cache.read store c' = cache.read store c
  read_write_of_error : ∀ {store c bytes e}, (cache.write store c bytes).1 = .error e →
    ∀ c', cache.read (cache.write store c bytes).2 c' = cache.read store c'

namespace ClassCache

variable {φ κ : Type} {cache : ClassCache φ} {key : ClassName → κ} {start : φ}
  {entries : List (ClassName × Bytes)} {c : ClassName} {bytes : Bytes}

/-- Writes entries in turn, whatever becomes of them, and keeps a record. -/
def writeAll (cache : ClassCache φ) (start : φ) (entries : List (ClassName × Bytes)) :
    φ × List CacheWrite :=
  entries.foldl (fun s e => (cache.recorded.write s e.1 e.2).2) (start, [])

theorem writeAll_concat (cache : ClassCache φ) (start : φ) (entries : List (ClassName × Bytes))
    (e : ClassName × Bytes) :
    cache.writeAll start (entries ++ [e]) =
      ((cache.write (cache.writeAll start entries).1 e.1 e.2).2,
        (cache.writeAll start entries).2 ++
          [⟨e.1, e.2, (cache.write (cache.writeAll start entries).1 e.1 e.2).1⟩]) := by
  rw [writeAll, List.foldl_concat]
  rfl

theorem map_name_writeAll (cache : ClassCache φ) (start : φ)
    (entries : List (ClassName × Bytes)) :
    (cache.writeAll start entries).2.map CacheWrite.name = entries.map Prod.fst := by
  induction entries using List.reverseRecOn with
  | nil => rfl
  | append_singleton entries e ih =>
    rw [writeAll_concat, List.map_append, List.map_append, ih]
    rfl

variable [DecidableEq κ]

/-- The bytes that were last stored for a key. -/
def lastStored (key : ClassName → κ) (k : κ) (log : List CacheWrite) : Option Bytes :=
  (log.filter fun w => key w.name = k ∧ w.result = .ok ()).getLast?.map CacheWrite.bytes

theorem lastStored_concat (key : ClassName → κ) (k : κ) (log : List CacheWrite)
    (w : CacheWrite) :
    lastStored key k (log ++ [w]) =
      if key w.name = k ∧ w.result = .ok () then some w.bytes else lastStored key k log := by
  rw [lastStored, List.filter_append, List.filter_singleton]
  by_cases h : key w.name = k ∧ w.result = .ok ()
  · simp [h]
  · simp [h, lastStored]

/-- What a writing makes of an entry. -/
theorem Atomic.read_write_eq (hcache : cache.Atomic key) (store : φ) (c c' : ClassName)
    (bytes : Bytes) :
    cache.read (cache.write store c bytes).2 c' =
      if key c = key c' ∧ (cache.write store c bytes).1 = .ok () then .ok (some bytes)
      else cache.read store c' := by
  cases hresult : (cache.write store c bytes).1 with
  | error e =>
    rw [if_neg fun h => nomatch h.2]
    exact hcache.read_write_of_error hresult c'
  | ok done =>
    by_cases hkey : key c = key c'
    · rw [if_pos ⟨hkey, rfl⟩, hcache.read_congr hkey.symm]
      exact hcache.read_write hresult
    · rw [if_neg fun h => hkey h.1]
      exact hcache.read_write_of_ne (Ne.symm hkey) store bytes

/-- After any writings an entry is what was last stored for its key, or what it was at first. -/
theorem Atomic.read_writeAll (hcache : cache.Atomic key) (start : φ)
    (entries : List (ClassName × Bytes)) (c : ClassName) :
    cache.read (cache.writeAll start entries).1 c =
      match lastStored key (key c) (cache.writeAll start entries).2 with
      | some bytes => .ok (some bytes)
      | none => cache.read start c := by
  induction entries using List.reverseRecOn with
  | nil => rfl
  | append_singleton entries e ih =>
    rw [writeAll_concat, lastStored_concat, hcache.read_write_eq, ih]
    dsimp only
    split <;> rfl

end ClassCache

/-! ## Writings that the system stops -/

namespace Cache

/-- What the system does to the writing of an entry, instead of letting it go on. -/
inductive Fault where
  /-- Nothing is written. -/
  | refused (e : FileError)
  /-- The temporary file is left, with some content, and not renamed. -/
  | cutOff (e : FileError) (left : Bytes)

/-- The files with the temporary file of a class, where it can be written. -/
def leaveTemporary (root : Path) (t : FileTree) (c : ClassName) (left : Bytes) : FileTree :=
  (t.write (temporaryPath root c).components left).toOption.getD t

/-- Writes the entry of a class, unless the system stops it. -/
def writeEntryUnder (fault : Option Fault) (root : Path) (t : FileTree) (c : ClassName)
    (bs : Bytes) : Except FileError Unit × FileTree :=
  match fault with
  | none => writeEntry root t c bs
  | some (.refused e) => (.error e, t)
  | some (.cutOff e left) => (.error e, leaveTemporary root t c left)

/-- The cache in a directory of a system that stops some writings: beside the files there is
what becomes of the writings to come, the first of them first. -/
def faultyDirectory (root : Path) : ClassCache (FileTree × List (Option Fault)) where
  read s c := readEntry root s.1 c
  write s c bs :=
    let out := writeEntryUnder s.2.head?.join root s.1 c bs
    (out.1, out.2, s.2.tail)

variable {root : Path} {t : FileTree} {c c' : ClassName} {bs content : Bytes} {fault : Option Fault}
  {e : FileError}

theorem readEntry_congr (h : entryName c' = entryName c) (root : Path) (t : FileTree) :
    readEntry root t c' = readEntry root t c := by
  rw [readEntry_eq, readEntry_eq, entryPlace, entryPlace, h]

theorem writeEntryUnder_none (root : Path) (t : FileTree) (c : ClassName) (bs : Bytes) :
    writeEntryUnder none root t c bs = writeEntry root t c bs := by
  rw [writeEntryUnder]

/-- Writing under a fault has the effects of a writing of some bytes that fails. -/
theorem written_writeEntryUnder (f : Fault) (root : Path) (t : FileTree) (c : ClassName)
    (bs : Bytes) : ∃ left e, (writeEntryUnder (some f) root t c bs).1 = .error e ∧
      Written root.components t c left (writeEntryUnder (some f) root t c bs) := by
  cases f with
  | refused e => exact ⟨bs, e, rfl, .refused e⟩
  | cutOff e left =>
    refine ⟨left, e, rfl, ?_⟩
    rw [writeEntryUnder, leaveTemporary, components_temporaryPath]
    cases hwrite : t.write (temporaryPlace root.components c) left with
    | error e' => exact .refused e
    | ok t' =>
      obtain ⟨-, -, rfl⟩ := FileTree.write_eq_ok_iff.mp hwrite
      exact .notRenamed e

/-- A writing that fails leaves at most the temporary file, which is no entry. -/
theorem Written.readEntry_of_error {out : Except FileError Unit × FileTree}
    (h : Written root.components t c bs out) (herror : out.1 = .error e) (c' : ClassName) :
    readEntry root out.2 c' = readEntry root t c' := by
  have hread : out.2.read (entryPlace root.components c') =
      t.read (entryPlace root.components c') := by
    refine FileTree.read_congr (fun p hp => h.node?_of_mem_ancestors c' hp) ?_
    cases h with
    | refused e => rfl
    | notRenamed e =>
      rw [FileTree.node?_put (entryPlace_ne_nil _ _),
        if_neg (entryPlace_ne_temporaryPlace _ _ _ _)]
    | renamed hwalk => cases herror
  rw [readEntry_eq, readEntry_eq, hread]

theorem readEntry_writeEntryUnder_of_error
    (herror : (writeEntryUnder fault root t c bs).1 = .error e) (c' : ClassName) :
    readEntry root (writeEntryUnder fault root t c bs).2 c' = readEntry root t c' := by
  cases fault with
  | none =>
    rw [writeEntryUnder_none] at herror ⊢
    exact (written_writeEntry root t c bs).readEntry_of_error herror c'
  | some f =>
    obtain ⟨left, -, -, hwritten⟩ := written_writeEntryUnder f root t c bs
    exact hwritten.readEntry_of_error herror c'

theorem readEntry_writeEntryUnder (h : (writeEntryUnder fault root t c bs).1 = .ok ()) :
    readEntry root (writeEntryUnder fault root t c bs).2 c = .ok (some bs) := by
  cases fault with
  | none =>
    rw [writeEntryUnder_none] at h ⊢
    exact readEntry_writeEntry h
  | some f =>
    obtain ⟨-, e, herror, -⟩ := written_writeEntryUnder f root t c bs
    rw [herror] at h
    cases h

theorem readEntry_writeEntryUnder_of_ne (fault : Option Fault) (root : Path) (t : FileTree)
    (bs : Bytes) (h : entryName c' ≠ entryName c) :
    readEntry root (writeEntryUnder fault root t c bs).2 c' = readEntry root t c' := by
  cases fault with
  | none =>
    rw [writeEntryUnder_none]
    exact readEntry_writeEntry_of_ne root t bs h
  | some f =>
    obtain ⟨-, e, herror, -⟩ := written_writeEntryUnder f root t c bs
    exact readEntry_writeEntryUnder_of_error herror c'

theorem readEntry_of_writeEntryUnder
    (h : readEntry root (writeEntryUnder fault root t c bs).2 c' = .ok (some content)) :
    readEntry root t c' = .ok (some content) ∨ entryName c' = entryName c ∧ content = bs := by
  cases fault with
  | none =>
    rw [writeEntryUnder_none] at h
    exact readEntry_of_writeEntry h
  | some f =>
    obtain ⟨-, e, herror, -⟩ := written_writeEntryUnder f root t c bs
    exact .inl ((readEntry_writeEntryUnder_of_error herror c').symm.trans h)

theorem read_faultyDirectory (root : Path) (s : FileTree × List (Option Fault)) (c : ClassName) :
    (faultyDirectory root).read s c = readEntry root s.1 c := by
  rw [faultyDirectory]

theorem write_faultyDirectory (root : Path) (s : FileTree × List (Option Fault)) (c : ClassName)
    (bs : Bytes) :
    (faultyDirectory root).write s c bs =
      ((writeEntryUnder s.2.head?.join root s.1 c bs).1,
        (writeEntryUnder s.2.head?.join root s.1 c bs).2, s.2.tail) := by
  rw [faultyDirectory]

/-- Whatever the system stops, the cache in a directory is a map from file names. -/
theorem atomic_faultyDirectory (root : Path) : (faultyDirectory root).Atomic entryName where
  read_write := by
    intro store c bytes h
    rw [write_faultyDirectory] at h ⊢
    rw [read_faultyDirectory]
    exact readEntry_writeEntryUnder h
  read_write_of_ne := by
    intro c c' h store bytes
    rw [write_faultyDirectory, read_faultyDirectory, read_faultyDirectory]
    exact readEntry_writeEntryUnder_of_ne _ root store.1 bytes h
  of_read_write := by
    intro store c c' bytes content h
    rw [write_faultyDirectory, read_faultyDirectory] at h
    rw [read_faultyDirectory]
    exact readEntry_of_writeEntryUnder h
  read_congr := by
    intro c c' h store
    rw [read_faultyDirectory, read_faultyDirectory, readEntry_congr h]
  read_write_of_error := by
    intro store c bytes e h c'
    rw [write_faultyDirectory] at h ⊢
    rw [read_faultyDirectory, read_faultyDirectory]
    exact readEntry_writeEntryUnder_of_error h c'

/-! ## Empty directories -/

end Cache

namespace FileTree

variable {t : FileTree} {place : Place} {name : String}

theorem node?_of_isEmptyDirectory (h : t.isEmptyDirectory place = true) :
    t.node? place = some .directory ∧ t.node? (place ++ [name]) = none := by
  rw [isEmptyDirectory, Bool.and_eq_true, decide_eq_true_eq, List.all_eq_true] at h
  obtain ⟨hdirectory, hbelow⟩ := h
  refine ⟨hdirectory, ?_⟩
  rw [node?, if_neg (List.append_ne_nil_of_right_ne_nil _ (List.cons_ne_nil _ _)),
    List.lookup_eq_none_iff]
  intro e he
  by_contra hsame
  have hplace : place ++ [name] = e.1 := by simpa using hsame
  have hprefix := List.isPrefixOf_iff_prefix.mpr (List.prefix_append place [name])
  have hnot := hbelow e he
  rw [← hplace, hprefix] at hnot
  simp at hnot

theorem ancestors_concat (place : Place) (name : String) :
    ancestors (place ++ [name]) = ancestors place ++ [place] := by
  rw [ancestors, ancestors, List.length_append, List.length_singleton, List.range_succ,
    List.map_append, List.map_singleton, List.take_left]
  congr 1
  refine List.map_congr_left fun n hn => ?_
  exact List.take_append_of_le_length (List.mem_range.mp hn).le

/-- A directory that can be walked to can be walked into. -/
theorem walk_concat (hwalk : t.walk place = .ok ()) (hdirectory : t.node? place = some .directory)
    (hname : validName name = true) : t.walk (place ++ [name]) = .ok () := by
  rw [walk] at hwalk ⊢
  split at hwalk
  · rename_i hvalid
    have hvalid' : (place ++ [name]).all validName = true := by
      rw [List.all_append, hvalid, List.all_cons, hname]
      rfl
    rw [if_pos hvalid', ancestors_concat, List.forM_eq_forM, List.forM_append, bind_eq_ok]
    refine ⟨(), hwalk, ?_⟩
    rw [List.forM_cons, enter, hdirectory]
    rfl
  · cases hwalk

/-- In an empty directory nothing is found. -/
theorem read_of_isEmptyDirectory (hempty : t.isEmptyDirectory place = true)
    (hwalk : t.walk place = .ok ()) (hname : validName name = true) :
    t.read (place ++ [name]) = .error .notFound := by
  obtain ⟨hdirectory, hnone⟩ := node?_of_isEmptyDirectory hempty
  rw [read, walk_concat hwalk hdirectory hname, hnone]
  rfl

end FileTree

namespace Cache

open ClassCache

variable {root : Path} {t : FileTree} {c : ClassName}

theorem readEntry_ne_of_isEmptyDirectory (h : t.isEmptyDirectory root.components = true)
    (c : ClassName) (bs : Bytes) : readEntry root t c ≠ .ok (some bs) := by
  intro hread
  have hnode := node?_of_readEntry hread
  rw [entryPlace, (FileTree.node?_of_isEmptyDirectory h).2] at hnode
  cases hnode

theorem readEntry_of_isEmptyDirectory (hempty : t.isEmptyDirectory root.components = true)
    (hwalk : t.walk root.components = .ok ())
    (hname : FileTree.validName (entryName c) = true) : readEntry root t c = .ok none := by
  rw [readEntry_eq, entryPlace, FileTree.read_of_isEmptyDirectory hempty hwalk hname]

/-- Where no other class that was written has the file name, what was stored under it was stored
for the class. -/
theorem lastStored_entryName {log : List CacheWrite}
    (h : ∀ w ∈ log, entryName w.name = entryName c → w.name = c) :
    lastStored entryName (entryName c) log = lastStored id c log := by
  have hsame : ∀ w ∈ log, decide (entryName w.name = entryName c ∧ w.result = .ok ()) =
      decide (id w.name = c ∧ w.result = .ok ()) := fun w hw =>
    decide_eq_decide.mpr (and_congr_left' ⟨h w hw, fun heq => congrArg entryName heq⟩)
  rw [lastStored, lastStored, List.filter_congr hsame]

/-- Names without dots have file names of their own. -/
theorem lastStored_of_no_dot {log : List CacheWrite} (hc : '.' ∉ c.text.toList)
    (hlog : ∀ w ∈ log, '.' ∉ w.name.text.toList) :
    lastStored entryName (entryName c) log = lastStored id c log :=
  lastStored_entryName fun w hw heq => entryName_injective_of_no_dot (hlog w hw) hc heq

/-- Entries that are written to an empty directory, any of them without success, make it a map
from file names.  A reading that succeeds gives what was last stored under the file name of the
class, and nothing if nothing was; it does succeed if something was, and otherwise if the
directory can be walked to and the file name is one that a file can have.  It is what was last
stored for the class itself, where no other class that was written has the file name.  A further
writing that fails, or is for another file name, changes nothing. -/
theorem reads_lastStored (hempty : t.isEmptyDirectory root.components = true)
    (faults : List (Option Fault)) (entries : List (ClassName × Bytes)) :
    let cache := faultyDirectory root
    let out := cache.writeAll (t, faults) entries
    (∀ c found, cache.read out.1 c = .ok found →
      found = lastStored entryName (entryName c) out.2) ∧
    (∀ c bs, lastStored entryName (entryName c) out.2 = some bs →
      cache.read out.1 c = .ok (some bs)) ∧
    (t.walk root.components = .ok () → ∀ c, FileTree.validName (entryName c) = true →
      cache.read out.1 c = .ok (lastStored entryName (entryName c) out.2)) ∧
    (∀ c, (∀ e ∈ entries, entryName e.1 = entryName c → e.1 = c) →
      lastStored entryName (entryName c) out.2 = lastStored id c out.2) ∧
    ∀ c bs c', entryName c' ≠ entryName c ∨ (cache.write out.1 c bs).1 ≠ .ok () →
      cache.read (cache.write out.1 c bs).2 c' = cache.read out.1 c' := by
  intro cache out
  have hatomic : cache.Atomic entryName := atomic_faultyDirectory root
  have hread : ∀ c, cache.read out.1 c = _ := hatomic.read_writeAll (t, faults) entries
  refine ⟨?found, ?stored, ?total, ?own, ?unchanged⟩
  case found =>
    intro c found hfound
    rw [hread] at hfound
    cases hlast : lastStored entryName (entryName c) out.2 with
    | some bs =>
      rw [hlast] at hfound
      exact (Except.ok.inj hfound).symm
    | none =>
      rw [hlast] at hfound
      cases found with
      | none => rfl
      | some bs =>
        rw [read_faultyDirectory] at hfound
        exact absurd hfound (readEntry_ne_of_isEmptyDirectory hempty c bs)
  case stored =>
    intro c bs hlast
    rw [hread, hlast]
  case total =>
    intro hwalk c hname
    rw [hread]
    cases lastStored entryName (entryName c) out.2 with
    | some bs => rfl
    | none =>
      rw [read_faultyDirectory]
      exact readEntry_of_isEmptyDirectory hempty hwalk hname
  case own =>
    intro c hown
    refine lastStored_entryName fun w hw heq => ?_
    have hnames : w.name ∈ entries.map Prod.fst := by
      rw [← map_name_writeAll cache (t, faults) entries]
      exact List.mem_map_of_mem hw
    obtain ⟨e, he, hname⟩ := List.mem_map.mp hnames
    rw [← hname] at heq ⊢
    exact hown e he heq
  case unchanged =>
    intro c bs c' h
    rw [hatomic.read_write_eq]
    refine if_neg fun hboth => ?_
    rcases h with hne | herror
    · exact hne hboth.1.symm
    · exact herror hboth.2

theorem reads_lastStored_cutOff :
    let cache := faultyDirectory ⟨"/cache"⟩
    let out := cache.writeAll (Instrumenter.emptyDirectory, [none, some (.cutOff .notFound [9])])
      [(⟨"a/b"⟩, [1]), (⟨"a/b"⟩, [2]), (⟨"c"⟩, [3])]
    cache.read out.1 ⟨"a/b"⟩ = .ok (some [1]) ∧ cache.read out.1 ⟨"c"⟩ = .ok (some [3]) ∧
      cache.read out.1 ⟨"d"⟩ = .ok none := by
  have hempty : Instrumenter.emptyDirectory.isEmptyDirectory (⟨"/cache"⟩ : Path).components =
      true := by decide
  obtain ⟨-, hstored, htotal, -, -⟩ := reads_lastStored hempty
    [none, some (.cutOff .notFound [9])] [(⟨"a/b"⟩, [1]), (⟨"a/b"⟩, [2]), (⟨"c"⟩, [3])]
  exact ⟨hstored _ _ (by decide +kernel), hstored _ _ (by decide +kernel),
    (htotal (by decide) ⟨"d"⟩ (by decide)).trans (by decide +kernel)⟩

/-- Two classes whose names differ in a slash and a dot have one entry: the one is read what was
stored for the other. -/
theorem not_reads_own : ¬ ∀ (root : Path) (t : FileTree) (faults : List (Option Fault))
    (entries : List (ClassName × Bytes)) (c : ClassName) (found : Option Bytes),
    t.isEmptyDirectory root.components = true →
    (faultyDirectory root).read ((faultyDirectory root).writeAll (t, faults) entries).1 c =
      .ok found →
    found = lastStored id c ((faultyDirectory root).writeAll (t, faults) entries).2 := by
  intro h
  have hown := h ⟨"/cache"⟩ Instrumenter.emptyDirectory [] [(⟨"a/b"⟩, [1]), (⟨"a.b"⟩, [2])]
    ⟨"a/b"⟩ (some [2]) (by decide) (by decide +kernel)
  revert hown
  decide +kernel

end Cache

end DexWeave
