/-
  DexWeave/Proofs/Retry.lean --- attachments made again after they failed.

  WHAT THIS FILE IS FOR.  An attachment that fails for one class leaves no record, although it
  may have rewritten others.  The next one loads all classes again, so a class that was
  rewritten is rewritten once more, on top of what it has.  The theorem here says how far this
  goes: a class has the bytes it started from, rewritten at most as often as an attachment
  reported that it loaded the class again.

  WHERE IT STARTS.  A class starts from its own bytes, or from what the cache of one of the
  attachments held for it at first: entries are used as they are found.

  HOW.  One invariant holds of the bytes of a class and of all its entries.  A batch keeps it,
  by its effect; so does an attachment; and so does a run, by induction.
-/
import DexWeave.Proofs.AttachOnce
import DexWeave.Proofs.BatchEffect
import DexWeave.Proofs.BridgeLoad
import DexWeave.Proofs.CacheEntry

set_option autoImplicit false

namespace DexWeave

/-! ## Rewriting again and again -/

/-- Bytes of a class that were rewritten a number of times. -/
inductive Rewritten (c : ClassName) (ts : List Transform) (base : Bytes) : Nat → Bytes → Prop where
  | start : Rewritten c ts base 0 base
  | again {n : Nat} {bytes new : Bytes} (h : Rewritten c ts base n bytes) (allocate : Allocator)
    (hnew : transformClass c ts allocate bytes = .ok new) : Rewritten c ts base (n + 1) new

/-- What a class may start from, rewritten at most a number of times. -/
def Stands (start : Bytes → Prop) (c : ClassName) (ts : List Transform) (limit : Nat)
    (bytes : Bytes) : Prop :=
  ∃ base n, start base ∧ n ≤ limit ∧ Rewritten c ts base n bytes

section Stands

variable {start : Bytes → Prop} {c : ClassName} {ts : List Transform} {limit limit' : Nat}
  {bytes new : Bytes}

theorem Stands.mono (h : Stands start c ts limit bytes) (hlimit : limit ≤ limit') :
    Stands start c ts limit' bytes := by
  obtain ⟨base, n, hbase, hn, hrewritten⟩ := h
  exact ⟨base, n, hbase, Nat.le_trans hn hlimit, hrewritten⟩

theorem Stands.again {allocate : Allocator} (h : Stands start c ts limit bytes)
    (hnew : transformClass c ts allocate bytes = .ok new) :
    Stands start c ts (limit + 1) new := by
  obtain ⟨base, n, hbase, hn, hrewritten⟩ := h
  exact ⟨base, n + 1, hbase, Nat.succ_le_succ hn, hrewritten.again allocate hnew⟩

end Stands

/-- Whether the class was loaded again. -/
def ClassOutcome.isReload : Option ClassOutcome → Bool
  | some .retransformed | some (.failed _) => true
  | some .redefined | none => false

namespace Instrumenter

/-! ## The files of a batch -/

/-- A batch with the cache in a directory, or without one. -/
def onDisk (root : Option Path) : Instrumenter FileTree := new (root.map Cache.inDirectory)

section Files

variable {root : Option Path} {entries : List (ClassName × Bytes)} {files : FileTree}

theorem cached_onDisk {names : List ClassName} (h : (onDisk root).Cached files names entries) :
    entries.map Prod.fst = names ∧ ∃ path, root = some path ∧ ∀ e ∈ entries,
      files.node? (Cache.entryPlace path.components e.1) = some (.file e.2) := by
  obtain ⟨hnames, cache, hcache, hread⟩ := h
  cases root with
  | none => cases hcache
  | some path =>
    obtain rfl := Option.some.inj hcache
    refine ⟨hnames, path, rfl, fun e he => ?_⟩
    have h := hread e he
    rw [Cache.read_inDirectory] at h
    exact Cache.node?_of_readEntry h

theorem stash_onDisk (root : Option Path) (files : FileTree) (c : ClassName) (bytes : Bytes) :
    (onDisk root).stash files c bytes = files ∨
      ∃ path, (onDisk root).stash files c bytes = (Cache.writeEntry path files c bytes).2 := by
  cases root with
  | none => exact .inl rfl
  | some path =>
    refine .inr ⟨path, ?_⟩
    rw [← Cache.write_inDirectory]
    rfl

/-- A file that stands where an entry would, after entries were written, stood there before or is
one of them. -/
theorem node?_stashAll_onDisk {directory : Place} {c : ClassName} {content : Bytes}
    (h : ((onDisk root).stashAll entries files).node? (Cache.entryPlace directory c) =
      some (.file content)) :
    files.node? (Cache.entryPlace directory c) = some (.file content) ∨
      ∃ e ∈ entries, Cache.entryName c = Cache.entryName e.1 ∧ content = e.2 := by
  induction entries generalizing files with
  | nil => exact .inl h
  | cons e entries ih =>
    rcases ih h with hbefore | ⟨e', he', hentry⟩
    · rcases stash_onDisk root files e.1 e.2 with hstash | ⟨path, hstash⟩
      · exact .inl (hstash ▸ hbefore)
      · replace hbefore : ((onDisk root).stash files e.1 e.2).node?
            (Cache.entryPlace directory c) = some (.file content) := hbefore
        rw [hstash] at hbefore
        exact (Cache.node?_entryPlace_of_writeEntry hbefore).imp_right
          fun hentry => ⟨e, List.mem_cons_self, hentry⟩
    · exact .inr ⟨e', List.mem_cons_of_mem e he', hentry⟩

end Files

/-! ## The invariant -/

section Invariant

variable {σ : Type} {vm : Vm σ} {view : σ → ClassName → Option Bytes}
  {plan : ClassName → LoadPlan} {listening : σ → Prop} {ts : List Transform} {state : σ}
  {files : FileTree} {start : Bytes → Prop} {roots : List Path} {c : ClassName} {limit : Nat}
  {root : Option Path}

/-- The class is loaded, and its bytes and all its entries are what it started from, rewritten at
most a number of times. -/
structure Bounded (start : Bytes → Prop) (roots : List Path) (ts : List Transform) (c : ClassName)
    (limit : Nat) (bytes : Option Bytes) (files : FileTree) : Prop where
  loaded : ∃ now, bytes = some now ∧ Stands start c (ownBridge ts c).transforms limit now
  stored : c ∈ batchClasses ts → ∀ path ∈ roots, ∀ content,
    files.node? (Cache.entryPlace path.components c) = some (.file content) →
    Stands start c (ownBridge ts c).transforms limit content

theorem Bounded.mono {limit' : Nat} {bytes : Option Bytes}
    (h : Bounded start roots ts c limit bytes files) (hlimit : limit ≤ limit') :
    Bounded start roots ts c limit' bytes files := by
  obtain ⟨now, hnow, hstands⟩ := h.loaded
  exact ⟨⟨now, hnow, hstands.mono hlimit⟩,
    fun hc path hpath content hfile => (h.stored hc path hpath content hfile).mono hlimit⟩

/-- A batch that loads its classes again counts once. -/
theorem bounded_of_reloaded {out : Outcome σ FileTree BatchReport InstrumentError}
    (hplan : (plan c).Single c) (hdot : ∀ t ∈ ts, '.' ∉ t.className.text.toList)
    (h : Bounded start roots ts c limit (view state c) files)
    (hout : Reloaded (onDisk root) view plan ts state files out) :
    Bounded start roots ts c (limit + (ClassOutcome.isReload (out.outcome? c)).toNat)
      (view out.state c) out.store := by
  by_cases hc : c ∈ batchClasses ts
  swap
  · rw [hout.others c hc]
    exact ⟨(h.mono (Nat.le_add_right _ _)).loaded, fun hmem => absurd hmem hc⟩
  have hreload : ClassOutcome.isReload (out.outcome? c) = true := by
    rw [hout.outcome c hc]
    cases hown : (ownBridge ts c).ownOutcome (plan c) (view state c) with
    | redefined => exact absurd hown Bridge.ownOutcome_ne_redefined
    | retransformed | failed reason => rfl
  rw [hreload, Bool.toNat_true]
  have hnow : ∃ now, view out.state c = some now ∧
      Stands start c (ownBridge ts c).transforms (limit + 1) now := by
    obtain ⟨now, hnow, hstands⟩ := h.loaded
    rw [hout.bytes c hc]
    rcases Bridge.own_of_single (b := ownBridge ts c) hplan (view state c) with
      ⟨hkept, -⟩ | ⟨allocate, resume, new, -, hnew, hbytes⟩
    · exact ⟨now, hkept.trans hnow, hstands.mono (Nat.le_succ limit)⟩
    · rw [hnow] at hnew
      exact ⟨new, hbytes, hstands.again hnew⟩
  refine ⟨hnow, fun _ path hpath content hfile => ?_⟩
  rw [hout.store_eq] at hfile
  rcases node?_stashAll_onDisk hfile with hbefore | ⟨e, he, hname, rfl⟩
  · exact (h.stored hc path hpath content hbefore).mono (Nat.le_succ limit)
  · -- the entry under this name is that of the class, and holds the bytes it has now
    obtain ⟨hclass, -, hentry⟩ := hout.of_mem_entries he
    have hdots : ∀ c ∈ batchClasses ts, '.' ∉ c.text.toList := fun c hc => by
      obtain ⟨t, ht, rfl⟩ := mem_batchClasses.mp hc
      exact hdot t ht
    obtain rfl := Cache.entryName_injective_of_no_dot (hdots c hc) (hdots _ hclass) hname
    obtain ⟨now, hnow, hstands⟩ := hnow
    obtain rfl : e.2 = now := Option.some.inj (hentry.symm.trans hnow)
    exact hstands

/-- Every batch keeps the invariant, and counts as often as it loads the class again. -/
theorem bounded_instrument (hvm : vm.Hosts view plan listening) (hplan : (plan c).Single c)
    (hdot : ∀ t ∈ ts, '.' ∉ t.className.text.toList)
    (hroot : ∀ path, root = some path → path ∈ roots)
    (h : Bounded start roots ts c limit (view state c) files) :
    Bounded start roots ts c
      (limit + (ClassOutcome.isReload
        (((onDisk root).instrument vm ts state files).outcome? c)).toNat)
      (view ((onDisk root).instrument vm ts state files).state c)
      ((onDisk root).instrument vm ts state files).store := by
  cases effect_instrument hvm (onDisk root) ts state files with
  | kept hview hstore houtcome hok =>
    rw [hview, hstore]
    exact h.mono (Nat.le_add_right _ _)
  | redefined entries hcached hview hstore hresult =>
    rw [hview, hstore]
    refine Bounded.mono ?_ (Nat.le_add_right _ _)
    obtain ⟨hnames, path, hpath, hfiles⟩ := cached_onDisk hcached
    by_cases hc : c ∈ batchClasses ts
    · obtain ⟨e, he, rfl⟩ := List.mem_map.mp (hnames ▸ hc)
      rw [bytesWith_of_mem (hnames ▸ nodup_batchClasses ts) he]
      exact ⟨⟨e.2, rfl, h.stored hc path (hroot path hpath) e.2 (hfiles e he)⟩, h.stored⟩
    · rw [bytesWith_of_not_mem (hnames ▸ hc)]
      exact h
  | reloaded hreloaded => exact bounded_of_reloaded hplan hdot h hreloaded

end Invariant

end Instrumenter

/-! ## Attachments -/

/-- What an attachment says of a class. -/
def Attachment.outcome? {σ : Type} (a : Attachment σ) (c : ClassName) : Option ClassOutcome :=
  match a.result with
  | .ok (.instrumented r) | .error (.instrumentation (.retransformFailed r)) => r.outcome? c
  | _ => none

/-- Whether an attachment says that it loaded a class again. -/
def Attachment.reloads {σ : Type} (c : ClassName) (a : Attachment σ) : Bool :=
  ClassOutcome.isReload (a.outcome? c)

/-- Attachments with one payload, each in the state the one before has left. -/
def attachInTurn {σ : Type} (payload : Bytes) :
    Breadcrumb → σ → FileTree → List (Vm σ × AgentConfig) → List (Attachment σ)
  | _, _, _, [] => []
  | b, state, files, (vm, config) :: calls =>
    let out := attach vm config payload b state files
    out :: attachInTurn payload out.breadcrumb out.state out.files calls

section Attachments

open Instrumenter

variable {σ : Type} {vm : Vm σ} {view : σ → ClassName → Option Bytes}
  {plan : ClassName → LoadPlan} {listening : σ → Prop} {config : AgentConfig} {payload : Bytes}
  {b : Breadcrumb} {state : σ} {files : FileTree} {start : Bytes → Prop} {roots : List Path}
  {mode : SwapMode} {c : ClassName} {limit : Nat} {original : Bytes}

theorem outcome?_concludeAttach
    (batch : Outcome σ FileTree BatchReport InstrumentError) :
    (concludeAttach payload batch).outcome? c = batch.outcome? c := by
  rw [concludeAttach, Outcome.outcome?]
  cases batch.result with
  | ok r => rfl
  | error e => cases e <;> rfl

/-- Making the directory of the cache makes no files. -/
theorem openCache_cases (config : AgentConfig) (hash : PayloadHash) (files : FileTree) :
    ∃ root, (config.openCache hash files).1 = Option.map Cache.inDirectory root ∧
      (∀ path, root = some path → path = config.cacheRoot hash) ∧
      ∀ place content, (config.openCache hash files).2.node? place = some (.file content) →
        files.node? place = some (.file content) := by
  rw [AgentConfig.openCache]
  split
  · split
    · rename_i made hmade
      refine ⟨some (config.cacheRoot hash), rfl, fun path hpath => (Option.some.inj hpath).symm,
        fun place content hfile => FileTree.node?_of_createDirectories hmade hfile⟩
    · exact ⟨none, rfl, nofun, fun _ _ hfile => hfile⟩
  · exact ⟨none, rfl, nofun, fun _ _ hfile => hfile⟩

theorem not_mem_dot_of_mode (mode : SwapMode) :
    ∀ t ∈ mode.transforms, '.' ∉ t.className.text.toList := by
  cases mode <;> decide

/-- Every attachment keeps the invariant, and counts as often as it loads the class again. -/
theorem bounded_attach (hvm : vm.Hosts view plan listening) (hplan : (plan c).Single c)
    (hmode : config.mode = mode) (hroot : config.cacheRoot (.ofBytes payload) ∈ roots)
    (h : Bounded start roots mode.transforms c limit (view state c) files) :
    Bounded start roots mode.transforms c
      (limit + ((attach vm config payload b state files).reloads c).toNat)
      (view (attach vm config payload b state files).state c)
      (attach vm config payload b state files).files := by
  cases hrecorded : b.recorded with
  | some recorded =>
    obtain ⟨notices, hanswer⟩ := attach_of_recorded payload hrecorded
    rw [hanswer]
    exact h.mono (Nat.le_add_right _ _)
  | none =>
    obtain rfl : b = .empty := congrArg Breadcrumb.mk hrecorded
    obtain ⟨root, hcache, hpath, hfiles⟩ := openCache_cases config (.ofBytes payload) files
    have hopened : Bounded start roots mode.transforms c limit (view state c)
        (config.openCache (.ofBytes payload) files).2 :=
      ⟨h.loaded, fun hc path hmem content hfile => h.stored hc path hmem content
        (hfiles _ content hfile)⟩
    rw [attach_empty, Attachment.reloads, outcome?_concludeAttach, state_concludeAttach,
      files_concludeAttach, attachBatch, hmode, hcache]
    exact bounded_instrument hvm hplan (not_mem_dot_of_mode mode)
      (fun path hsome => hpath path hsome ▸ hroot) hopened

/-- A run keeps the invariant after each of its attachments. -/
theorem bounded_attachInTurn {calls : List (Vm σ × AgentConfig)}
    (hvm : ∀ call ∈ calls, call.1.LoadsOnce view)
    (hmode : ∀ call ∈ calls, call.2.mode = mode)
    (hroot : ∀ call ∈ calls, call.2.cacheRoot (.ofBytes payload) ∈ roots)
    (h : Bounded start roots mode.transforms c limit (view state c) files) :
    ∀ front out back, attachInTurn payload b state files calls = front ++ out :: back →
      Bounded start roots mode.transforms c
        (limit + (front ++ [out]).countP (Attachment.reloads c)) (view out.state c) out.files := by
  induction calls generalizing b state files limit with
  | nil =>
    intro front out back hsplit
    cases front <;> cases hsplit
  | cons call calls ih =>
    obtain ⟨plan, listening, hhosts, hplan⟩ := hvm call List.mem_cons_self
    have hone := bounded_attach (b := b) hhosts (hplan c) (hmode call List.mem_cons_self)
      (hroot call List.mem_cons_self) h
    intro front out back hsplit
    rw [attachInTurn] at hsplit
    cases front with
    | nil =>
      obtain ⟨rfl, -⟩ := List.cons.inj hsplit
      rw [List.nil_append, List.countP_singleton]
      cases hreloads : Attachment.reloads c (attach call.1 call.2 payload b state files) <;>
        rw [hreloads] at hone <;> exact hone
    | cons first front =>
      rw [List.cons_append] at hsplit
      obtain ⟨rfl, htail⟩ := List.cons.inj hsplit
      have hrest := ih (fun call' h' => hvm call' (List.mem_cons_of_mem call h'))
        (fun call' h' => hmode call' (List.mem_cons_of_mem call h'))
        (fun call' h' => hroot call' (List.mem_cons_of_mem call h')) hone front out back htail
      refine hrest.mono (Nat.le_of_eq ?_)
      rw [List.cons_append, List.countP_cons]
      cases Attachment.reloads c (attach call.1 call.2 payload b state files) <;>
        simp only [Bool.toNat_false, Bool.toNat_true, if_true, Bool.false_eq_true, if_false] <;>
        omega

/-- After every attachment a loaded class has its own bytes, or what the cache of an attachment
held for it at first, rewritten at most as often as an attachment so far said that it loaded the
class again. -/
theorem rewritten_attachInTurn {calls : List (Vm σ × AgentConfig)}
    (hvm : ∀ call ∈ calls, call.1.LoadsOnce view)
    (hmode : ∀ call ∈ calls, call.2.mode = mode) (hloaded : view state c = some original) :
    ∀ front out back, attachInTurn payload b state files calls = front ++ out :: back →
      ∃ now base n, view out.state c = some now ∧
        (base = original ∨ ∃ call ∈ calls, files.node?
          (Cache.entryPath (call.2.cacheRoot (.ofBytes payload)) c).components =
            some (.file base)) ∧
        n ≤ (front ++ [out]).countP (Attachment.reloads c) ∧
        Rewritten c (mode.transforms.filter fun t => t.className = c) base n now := by
  intro front out back hsplit
  have hstart : Bounded
      (fun base => base = original ∨ ∃ call ∈ calls, files.node?
        (Cache.entryPath (call.2.cacheRoot (.ofBytes payload)) c).components =
          some (.file base))
      (calls.map fun call => call.2.cacheRoot (.ofBytes payload)) mode.transforms c 0
      (view state c) files := by
    constructor
    · exact ⟨original, hloaded, original, 0, .inl rfl, Nat.le_refl 0, .start⟩
    · intro _ path hpath content hfile
      obtain ⟨call, hcall, rfl⟩ := List.mem_map.mp hpath
      rw [← Cache.components_entryPath] at hfile
      exact ⟨content, 0, .inr ⟨call, hcall, hfile⟩, Nat.le_refl 0, .start⟩
  have hafter := bounded_attachInTurn (b := b) hvm hmode
    (fun call hcall => List.mem_map_of_mem hcall) hstart front out back hsplit
  rw [Nat.zero_add] at hafter
  obtain ⟨now, hnow, base, n, hbase, hn, hrewritten⟩ := hafter.loaded
  exact ⟨now, base, n, hnow, hbase, hn, hrewritten⟩

/-! ## Attachments without a cache -/

/-- Without a cache and a record, an attachment that gets as far as the classes loads all of them
again. -/
theorem reloaded_attachBatch (config : AgentConfig) (payload : Bytes) (files : FileTree)
    (hvm : vm.Hosts view plan listening)
    (hcaching : config.cachingEnabled = false)
    (hloaded : ∀ t ∈ config.mode.transforms, vm.isLoaded state t.className = true)
    (henable : (vm.setLoadHook state true).1 = .ok ()) :
    Reloaded (onDisk none) view plan config.mode.transforms state files
      (attachBatch vm config payload state files) := by
  have hopened : config.openCache (.ofBytes payload) files = (none, files) := by
    rw [AgentConfig.openCache, hcaching]
    rfl
  have hmode : config.mode.transforms ≠ [] := by
    cases config.mode <;> exact List.cons_ne_nil _ _
  have hmissing : ∀ entries, ¬ (onDisk none).Cached files (batchClasses config.mode.transforms)
      entries := fun entries hcached => by
    obtain ⟨-, path, hpath, -⟩ := cached_onDisk hcached
    cases hpath
  rw [attachBatch, hopened]
  exact reloaded_of_missing hvm hloaded hmode (Prod.ext henable rfl) hmissing

theorem attachInTurn_two (payload : Bytes) (b : Breadcrumb) (state : σ) (files : FileTree)
    (call call' : Vm σ × AgentConfig) :
    ∃ first second, attachInTurn payload b state files [call, call'] = [first, second] :=
  ⟨_, _, rfl⟩

/-- Two attachments of which the first one leaves no record. -/
theorem attachInTurn_pair (vm' : Vm σ) (config' : AgentConfig)
    {first : Instrumenter.Outcome σ FileTree BatchReport InstrumentError}
    (hfirst : attachBatch vm config payload state files = first)
    (hcrumb : (concludeAttach payload first).breadcrumb = .empty) :
    attachInTurn payload .empty state files [(vm, config), (vm', config')] =
      [concludeAttach payload first,
        concludeAttach payload (attachBatch vm' config' payload first.state first.store)] := by
  rw [attachInTurn, attachInTurn, attachInTurn, attach_empty, hfirst]
  simp only [hcrumb, state_concludeAttach, files_concludeAttach, attach_empty]

end Attachments

/-! ## A class that is rewritten twice -/

namespace Retried

open Instrumenter

/-- The class that takes broadcasts, before it is rewritten. -/
def receiver : ClassDef where
  name := Catalog.dispatchPackageBroadcast.owner
  flags := ⟨1⟩
  super := none
  methods :=
    [⟨Catalog.dispatchPackageBroadcast, ⟨1⟩, some ⟨3, 3, 0, [.instruction .returnVoid]⟩⟩]

/-- What a change of code does to it. -/
def hooks : List Transform :=
  SwapMode.applyChanges.transforms.filter fun t =>
    t.className = receiver.name

/-- The bytes of a class. -/
def stored (k : ClassDef) : Bytes := (DexFile.image ⟨[k]⟩).toOption.getD []

/-- A machine with the classes that a change of code is applied to. -/
def application : ScriptedVm where
  script := ScriptedVm.quiet
  hookEnabled := false
  classes := [(receiver.name, stored receiver),
    (Catalog.findResource.owner, stored ⟨Catalog.findResource.owner, ⟨1⟩, none, []⟩)]

/-- The second class cannot be loaded again. -/
def unmodifiable : VmScript :=
  ⟨none, none, none, [(Catalog.findResource.owner, ⟨some (.code 7), none, none⟩)]⟩

/-- A change of code, without a cache. -/
def config : AgentConfig := .new ⟨"/data"⟩

/-- The same is tried twice; the second time no call fails. -/
def calls : List (Vm ScriptedVm × AgentConfig) :=
  [(ScriptedVm.following unmodifiable Allocator.heap, config),
    (ScriptedVm.following ScriptedVm.quiet Allocator.heap, config)]

/-- "hooks" in ASCII. -/
def payload : Bytes := [0x68, 0x6f, 0x6f, 0x6b, 0x73]

theorem decode_receiver : ∃ bytes, DexFile.image ⟨[receiver]⟩ = .ok bytes ∧
    DexFile.decode bytes receiver.name = .ok ⟨[receiver]⟩ := by
  obtain ⟨bytes, hbytes⟩ :=
    Fallible.exists_ok_of_isOk (by decide +kernel : (DexFile.image ⟨[receiver]⟩).isOk = true)
  refine ⟨bytes, hbytes, DexFile.decode_image hbytes (by decide +kernel) fun b hb => ?_⟩
  obtain rfl : b = ⟨3, 3, 0, [.instruction .returnVoid]⟩ := List.mem_singleton.mp hb
  exact ⟨⟨[⟨none, .returnVoid⟩], rfl⟩, rfl, by decide, fun l => by
    simp [labelsOf, instructionsOf, Line.label?, Line.instruction?, Instruction.target?]⟩

theorem named_hooks : ∀ t ∈ hooks, t.Named := by
  intro t ht
  have hcatalog : t ∈ Catalog.applyChanges := List.mem_of_mem_filter ht
  simp only [Catalog.applyChanges, List.mem_cons, List.not_mem_nil, or_false] at hcatalog
  rcases hcatalog with rfl | rfl | rfl <;> exact ⟨by decide, nofun⟩

theorem bytesOf?_receiver : application.bytesOf? receiver.name = some (stored receiver) :=
  List.lookup_cons_self

theorem isSome_bytesOf?_other :
    (application.bytesOf? Catalog.findResource.owner).isSome = true := by
  have hne : (Catalog.findResource.owner == receiver.name) = false := by decide
  rw [ScriptedVm.bytesOf?, application, List.lookup_cons, hne]
  simp only [List.lookup_cons_self, Option.isSome_some]

theorem mem_batchClasses_receiver :
    receiver.name ∈ batchClasses SwapMode.applyChanges.transforms :=
  mem_batchClasses.mpr ⟨_, List.mem_cons_self, rfl⟩

theorem mem_batchClasses_other :
    Catalog.findResource.owner ∈ batchClasses SwapMode.applyChanges.transforms :=
  mem_batchClasses.mpr ⟨_, List.mem_cons_of_mem _ (List.mem_cons_of_mem _ List.mem_cons_self), rfl⟩

/-- An attempt that finds both classes loads them again. -/
theorem reloaded_attempt (script : VmScript) (hscript : script.enableError = none)
    {state : ScriptedVm} (files : FileTree)
    (hreceiver : (state.bytesOf? receiver.name).isSome = true)
    (hother : (state.bytesOf? Catalog.findResource.owner).isSome = true) :
    Reloaded (onDisk none) ScriptedVm.bytesOf? (ScriptedVm.planOf Allocator.heap script)
      SwapMode.applyChanges.transforms state files
      (attachBatch (ScriptedVm.following script Allocator.heap) config payload state files) := by
  have hloaded : ∀ t ∈ SwapMode.applyChanges.transforms,
      (state.bytesOf? t.className).isSome = true := by
    intro t ht
    simp only [SwapMode.transforms, Catalog.applyChanges, List.mem_cons, List.not_mem_nil,
      or_false] at ht
    rcases ht with rfl | rfl | rfl
    · exact hreceiver
    · exact hreceiver
    · exact hother
  have henable : ((ScriptedVm.following script Allocator.heap).setLoadHook state true).1 =
      .ok () := by
    simp only [ScriptedVm.following, ScriptedVm.machine, if_true, hscript]
  exact reloaded_attachBatch config payload files (ScriptedVm.hosts_following _ _) rfl
    hloaded henable

theorem rewritten_attachInTurn_calls :
    ∃ first second now n,
      attachInTurn payload .empty application .empty calls = [first, second] ∧
      second.state.bytesOf? receiver.name = some now ∧ n ≤ 2 ∧
      Rewritten receiver.name hooks (stored receiver) n now := by
  have hvm : ∀ call ∈ calls, call.1.LoadsOnce ScriptedVm.bytesOf? := by
    intro call hcall
    rcases List.mem_cons.mp hcall with rfl | hcall
    · exact ScriptedVm.loadsOnce_following (by simp [unmodifiable]) Allocator.heap
    · obtain rfl := List.mem_singleton.mp hcall
      exact ScriptedVm.loadsOnce_following (by simp [ScriptedVm.quiet]) Allocator.heap
  have hmode : ∀ call ∈ calls, call.2.mode = .applyChanges := by
    intro call hcall
    rcases List.mem_cons.mp hcall with rfl | hcall
    · rfl
    · obtain rfl := List.mem_singleton.mp hcall
      rfl
  obtain ⟨first, second, hcalls⟩ := attachInTurn_two payload .empty application .empty
    (ScriptedVm.following unmodifiable Allocator.heap, config)
    (ScriptedVm.following ScriptedVm.quiet Allocator.heap, config)
  obtain ⟨now, base, n, hnow, hbase, hn, hrewritten⟩ :=
    rewritten_attachInTurn hvm hmode bytesOf?_receiver [first] second [] hcalls
  refine ⟨first, second, now, n, hcalls, hnow, Nat.le_trans hn List.countP_le_length, ?_⟩
  rcases hbase with rfl | ⟨call, -, hfile⟩
  · exact hrewritten
  · rw [FileTree.node?] at hfile
    split at hfile <;> cases hfile

/-- The first attachment rewrites one class and fails for the other, and the second one rewrites
the first class again, so in the end it has neither its own bytes nor those of one rewriting. -/
theorem not_once_attachInTurn :
    ¬ ∀ front out back, attachInTurn payload .empty application .empty calls =
        front ++ out :: back →
      ∀ c original, application.bytesOf? c = some original →
        ∃ now, out.state.bytesOf? c = some now ∧
          (now = original ∨ transformClass c
            (SwapMode.applyChanges.transforms.filter fun t => t.className = c) Allocator.heap
            original = .ok now) := by
  intro hclaim
  obtain ⟨bytes, himage, hread⟩ := decode_receiver
  have hname : ';' ∉ receiver.name.text.toList := by decide
  obtain ⟨once, honce, hreadOnce⟩ :=
    exists_transformClass_of_decode hread named_hooks hname (by decide +kernel)
  obtain ⟨twice, htwice, hreadTwice⟩ :=
    exists_transformClass_of_decode hreadOnce named_hooks hname (by decide +kernel)
  have hbytes : application.bytesOf? receiver.name = some bytes := by
    rw [bytesOf?_receiver, stored, himage]
    rfl
  -- the first attachment rewrites the class and leaves no record
  have hfirst := reloaded_attempt unmodifiable rfl .empty
    (by rw [hbytes]; rfl) isSome_bytesOf?_other
  generalize hbatch : attachBatch (ScriptedVm.following unmodifiable Allocator.heap) config
    payload application .empty = batch at hfirst
  have honceBytes := hfirst.bytes_of_load mem_batchClasses_receiver
    (ScriptedVm.planOf_of_lookup (by decide)) hbytes honce
  obtain ⟨hkept, hfailed⟩ := hfirst.kept_of_done mem_batchClasses_other
    (ScriptedVm.planOf_of_error ⟨some (.code 7), none, none⟩ (by decide) rfl)
  have hcrumb : (concludeAttach payload batch).breadcrumb = .empty := by
    rcases concludeAttach_cases payload batch with ⟨r, hr, -, -⟩ | ⟨e, -, -, hcrumb⟩
    · exact absurd hr (hfailed r)
    · exact hcrumb
  -- so the second one rewrites it again
  have hsecond := reloaded_attempt ScriptedVm.quiet rfl batch.store
    (by rw [honceBytes]; rfl) (by rw [hkept, isSome_bytesOf?_other])
  have htwiceBytes := hsecond.bytes_of_load mem_batchClasses_receiver
    (ScriptedVm.planOf_of_lookup rfl) honceBytes htwice
  have hcalls := attachInTurn_pair (ScriptedVm.following ScriptedVm.quiet Allocator.heap) config
    hbatch hcrumb
  obtain ⟨now, hnow, hone⟩ := hclaim [_] _ [] hcalls _ _ hbytes
  rw [state_concludeAttach, htwiceBytes] at hnow
  obtain rfl := Option.some.inj hnow
  rcases hone with rfl | hone
  · have hsame := Except.ok.inj (hread.symm.trans hreadTwice)
    exact absurd hsame (by decide +kernel)
  · obtain rfl := Except.ok.inj (honce.symm.trans hone)
    have hsame := Except.ok.inj (hreadOnce.symm.trans hreadTwice)
    exact absurd hsame (by decide +kernel)

end Retried

end DexWeave
