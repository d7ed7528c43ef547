/-
  DexWeave/Proofs/Conversation.lean --- what is said while a class is loaded again.

  WHAT THIS FILE IS FOR.  Loading a class again is a conversation of the machine with a
  hook.  A conversation that was overheard is data: the loads in order, each with its
  memory and its answer, and how they ended.  Any machine can be given a record of its
  conversations; it behaves as it does without one.

  WHAT IS ASKED OF A MACHINE.  That the bytes which the hook returns for a load become
  the bytes of the loaded class, and that nothing else changes bytes.  Which classes are
  loaded, how often, with which data, and how it ends, is left open and may depend on
  the answers.

  WHAT FOLLOWS.  If a bridge is the hook, then the class of the bridge has the last bytes
  the bridge returned, and what the bridge remembers is the answer to the last load of
  its class.
-/
import DexWeave.Proofs.BridgeLoads
import DexWeave.Proofs.Delivery

set_option autoImplicit false

namespace DexWeave

/-! ## Records -/

/-- A class that was loaded again, as it was overheard. -/
structure Conversation where
  /-- The class. -/
  name : ClassName
  /-- What was loaded meanwhile, in order, with what the hook answered. -/
  loads : List ((Allocator × ClassLoad) × Option Bytes)
  /-- How it ended. -/
  result : Except VmError Unit

namespace Conversation

/-- The bytes that the hook returned, in order. -/
def images (talk : Conversation) : List Bytes := talk.loads.filterMap Prod.snd

/-- The answers to the loads of the class itself, in order. -/
def ownAnswers (talk : Conversation) : List (Option Bytes) :=
  talk.loads.filterMap fun l => if l.1.2.name = talk.name then some l.2 else none

/-- The bytes that the last load of the class itself was answered with, if the class was loaded
and did not keep its bytes. -/
def lastAnswer (talk : Conversation) : Option Bytes := talk.ownAnswers.getLast?.join

/-- The entry of a class that was loaded again: the machine reported success, and the last load of
the class was answered with these bytes. -/
def ownEntry (talk : Conversation) : Option (ClassName × Bytes) :=
  match talk.result with
  | .error _ => none
  | .ok () => talk.lastAnswer.map fun image => (talk.name, image)

theorem ownEntry_eq_some_iff {talk : Conversation} {e : ClassName × Bytes} :
    talk.ownEntry = some e ↔
      talk.name = e.1 ∧ talk.result = .ok () ∧ talk.lastAnswer = some e.2 := by
  rw [ownEntry]
  rcases talk.result with error | ⟨⟨⟩⟩
  · simp
  · simp only [Option.map_eq_some_iff, true_and]
    constructor
    · rintro ⟨image, himage, rfl⟩
      exact ⟨rfl, himage⟩
    · rintro ⟨hname, himage⟩
      exact ⟨e.2, himage, Prod.ext hname rfl⟩

/-- The entries of a class are those of the conversations about it. -/
theorem filter_entries (talks : List Conversation) (c : ClassName) :
    (talks.filterMap ownEntry).filter (fun e => e.1 = c) =
      (talks.filter fun talk => talk.name = c).filterMap ownEntry := by
  rw [List.filter_filterMap, List.filterMap_filter]
  refine List.filterMap_congr fun talk _ => ?_
  cases hentry : talk.ownEntry with
  | none => rw [ite_self]; rfl
  | some e =>
    obtain ⟨hname, -⟩ := ownEntry_eq_some_iff.mp hentry
    rw [Option.filter_some, ← hname]

/-- There is one conversation about a class. -/
theorem filter_of_nodup {talks : List Conversation} (hnodup : (talks.map name).Nodup)
    {talk : Conversation} (htalk : talk ∈ talks) :
    (talks.filter fun other => other.name = talk.name) = [talk] := by
  obtain ⟨front, back, rfl⟩ := List.append_of_mem htalk
  rw [List.map_append, List.map_cons, List.nodup_middle, List.nodup_cons, ← List.map_append]
    at hnodup
  have hothers : ∀ other ∈ front ++ back, ¬ other.name = talk.name :=
    fun other hother hname => hnodup.1 (hname ▸ List.mem_map_of_mem hother)
  have hfront : (front.filter fun other => other.name = talk.name) = [] :=
    List.filter_eq_nil_iff.mpr fun other hother => by
      simpa using hothers other (List.mem_append_left back hother)
  have hback : (back.filter fun other => other.name = talk.name) = [] :=
    List.filter_eq_nil_iff.mpr fun other hother => by
      simpa using hothers other (List.mem_append_right front hother)
  rw [List.filter_append, List.filter_cons, hfront, hback]
  simp

end Conversation

section Machines

variable {σ η : Type}

namespace Loading

/-- The loads of a conversation with their answers. -/
def heard (hook : η → Allocator × ClassLoad → Option Bytes × η) :
    η → Loading σ → List ((Allocator × ClassLoad) × Option Bytes)
  | _, done _ _ => []
  | h, load allocate event resume =>
    ((allocate, event), (hook h (allocate, event)).1) ::
      heard hook (hook h (allocate, event)).2 (resume (hook h (allocate, event)).1)

/-- The conversation about a class with a record of it, after what was heard before, at the end of
a list of such records. -/
def overheard (talks : List Conversation) (c : ClassName) :
    List ((Allocator × ClassLoad) × Option Bytes) → Loading σ → Loading (σ × List Conversation)
  | before, done result state => done result (state, talks ++ [⟨c, before, result⟩])
  | before, load allocate event resume =>
    load allocate event fun returned =>
      overheard talks c (before ++ [((allocate, event), returned)]) (resume returned)

/-- A conversation runs with a record as it does without one, and what is recorded is what was
heard. -/
theorem run_overheard (talks : List Conversation) (c : ClassName)
    (hook : η → Allocator × ClassLoad → Option Bytes × η) (h : η)
    (before : List ((Allocator × ClassLoad) × Option Bytes)) (l : Loading σ) :
    (l.overheard talks c before).run hook h =
      (((l.run hook h).1.1, (l.run hook h).1.2,
        talks ++ [⟨c, before ++ l.heard hook h, (l.run hook h).1.1⟩]), (l.run hook h).2) := by
  -- the record is as long as what was heard before, so that is left open
  induction l generalizing h before with
  | done result state => rw [heard, List.append_nil]; rfl
  | load allocate event resume ih =>
    have hrest := ih (hook h (allocate, event)).1 (hook h (allocate, event)).2
      (before ++ [((allocate, event), (hook h (allocate, event)).1)])
    rw [List.append_assoc, List.singleton_append] at hrest
    exact hrest

end Loading

/-- The machine with a record of its conversations beside its state. -/
def Vm.overheard (vm : Vm σ) : Vm (σ × List Conversation) where
  isLoaded s name := vm.isLoaded s.1 name
  setLoadHook s enabled :=
    let (result, state) := vm.setLoadHook s.1 enabled
    (result, state, s.2)
  redefine s definitions :=
    let (result, state) := vm.redefine s.1 definitions
    (result, state, s.2)
  retransform s name := (vm.retransform s.1 name).overheard s.2 name []

/-! ## Bridges in conversation -/

namespace Bridge

variable {b : Bridge}

/-- Every load was answered by the bridge as if it were the only one. -/
theorem answer_of_mem_heard {l : Loading σ} {seen : BridgeOutcome}
    {x : (Allocator × ClassLoad) × Option Bytes} (hx : x ∈ l.heard b.hook seen) :
    x.2 = b.answer x.1 := by
  induction l generalizing seen with
  | done result state => cases hx
  | load allocate event resume ih =>
    rcases List.mem_cons.mp hx with rfl | hx
    · exact congrArg Prod.fst (onLoad_eq seen allocate event)
    · exact ih _ hx

/-- What is remembered is what the loads of the conversation come to. -/
theorem seen_run (b : Bridge) (l : Loading σ) (seen : BridgeOutcome) :
    (l.run b.hook seen).2 = (b.onLoads seen ((l.heard b.hook seen).map Prod.fst)).2 := by
  induction l generalizing seen with
  | done result state => rfl
  | load allocate event resume ih => exact ih _ _

/-- What a bridge was told and answered while a machine loaded its class again. -/
def talk (b : Bridge) (vm : Vm σ) (state : σ) : Conversation where
  name := b.name
  loads := (vm.retransform state b.name).heard b.hook .notReached
  result := ((vm.retransform state b.name).run b.hook .notReached).1.1

/-- The answers to the loads of the own class are what these loads come to. -/
theorem ownAnswers_talk (b : Bridge) (vm : Vm σ) (state : σ) :
    (b.talk vm state).ownAnswers =
      (((b.talk vm state).loads.map Prod.fst).filterMap b.result?).map Except.toOption := by
  rw [Conversation.ownAnswers, List.filterMap_map, List.map_filterMap]
  refine List.filterMap_congr fun x hx => ?_
  have hname : (b.talk vm state).name = b.name := rfl
  rw [answer_of_mem_heard hx, hname, Function.comp_apply]
  by_cases hown : x.1.2.name = b.name
  · rw [if_pos hown, answer_of_own hown, result?_of_own hown, Option.map_some]
  · rw [if_neg hown, result?_of_ne hown, Option.map_none]

/-- The bridge remembers the bytes that the last load of its class was answered with. -/
theorem lastAnswer_talk (b : Bridge) (vm : Vm σ) (state : σ) :
    (b.talk vm state).lastAnswer =
      ((vm.retransform state b.name).run b.hook .notReached).2.image? := by
  have hloads : (b.talk vm state).loads =
      (vm.retransform state b.name).heard b.hook .notReached := rfl
  rw [seen_run, onLoads_eq, ← hloads, Conversation.lastAnswer, ownAnswers_talk,
    List.getLast?_map]
  cases (((b.talk vm state).loads.map Prod.fst).filterMap b.result?).getLast? with
  | none => rfl
  | some result => exact (BridgeOutcome.image?_ofResult result).symm

/-- If the last load of the class was answered with bytes, they are the last that were returned:
loads of other classes are answered with none. -/
theorem getLast?_images {talk : Conversation} {image : Bytes} (hname : talk.name = b.name)
    (hanswered : ∀ x ∈ talk.loads, x.2 = b.answer x.1)
    (h : talk.lastAnswer = some image) : talk.images.getLast? = some image := by
  obtain ⟨front, x, back, hloads, hx, hback⟩ :=
    exists_of_getLast?_filterMap (Option.join_eq_some_iff.mp h)
  have himage : x.2 = some image := by
    split at hx
    · exact Option.some.inj hx
    · cases hx
  have hnone : back.filterMap Prod.snd = [] := by
    refine List.filterMap_eq_nil_iff.mpr fun y hy => ?_
    have hmem : y ∈ talk.loads := by
      rw [hloads]
      exact List.mem_append_right front (List.mem_cons_of_mem x hy)
    have hforeign : y.1.2.name ≠ b.name := fun hown => by
      have hkept := hback y hy
      rw [if_pos (hown.trans hname.symm)] at hkept
      cases hkept
    rw [hanswered y hmem]
    exact answer_of_ne hforeign
  rw [Conversation.images, hloads, List.filterMap_append, List.filterMap_cons_some himage, hnone]
  exact List.getLast?_concat

end Bridge

/-! ## Machines that store what is returned -/

/-- The conversation gives the class of every load the bytes that are returned for it, and in the
end the classes have the bytes they were given. -/
inductive Loading.Stores (view : σ → ClassName → Option Bytes) :
    (ClassName → Option Bytes) → Loading σ → Prop where
  | done (result : Except VmError Unit) (state : σ) :
    Stores view (view state) (.done result state)
  | load (bytes : ClassName → Option Bytes) (allocate : Allocator) (event : ClassLoad)
    (resume : Option Bytes → Loading σ)
    (h : ∀ returned, Stores view (bytesAfter bytes event.name returned) (resume returned)) :
    Stores view bytes (.load allocate event resume)

/-- A machine whose classes have the bytes seen by `view` stores what is returned for the classes
it loads, and changes no bytes when the notification is switched. -/
structure Vm.StoresReturned (vm : Vm σ) (view : σ → ClassName → Option Bytes) : Prop where
  keeps : ∀ state enabled, view (vm.setLoadHook state enabled).2 = view state
  stores : ∀ state c, (vm.retransform state c).Stores view (view state)

variable {view : σ → ClassName → Option Bytes}

theorem bytesAfter_bytesAfter (bytes : ClassName → Option Bytes) (name : ClassName)
    (first second : Option Bytes) :
    bytesAfter (bytesAfter bytes name first) name second =
      bytesAfter bytes name (second.or first) := by
  funext c
  by_cases hc : c = name
  · subst hc
    rw [bytesAfter_own, bytesAfter_own, bytesAfter_own, Option.or_assoc]
  · rw [bytesAfter_of_ne _ hc, bytesAfter_of_ne _ hc, bytesAfter_of_ne _ hc]

/-- With a bridge as the hook, its class has the last bytes that the bridge returned, and the
other classes have the bytes they had. -/
theorem Loading.Stores.view_run {bytes : ClassName → Option Bytes} {l : Loading σ}
    (h : l.Stores view bytes) (b : Bridge) (seen : BridgeOutcome) :
    view (l.run b.hook seen).1.2 =
      bytesAfter bytes b.name ((l.heard b.hook seen).filterMap Prod.snd).getLast? := by
  induction h generalizing seen with
  | done result state => rfl
  | load bytes allocate event resume h ih =>
    have hanswer : (b.hook seen (allocate, event)).1 = b.answer (allocate, event) :=
      congrArg Prod.fst (Bridge.onLoad_eq seen allocate event)
    rw [run, heard, ih, hanswer, List.filterMap_cons]
    by_cases hown : event.name = b.name
    · -- what is returned later takes the place of what is returned now
      rw [hown, bytesAfter_bytesAfter]
      cases b.answer (allocate, event) with
      | none => rw [Option.or_none]
      | some image => simp only [List.getLast?_cons, Option.or_some]
    · rw [Bridge.answer_of_ne hown]
      rfl

/-- A conversation that keeps to a plan stores what is returned. -/
theorem Loading.Follows.stores {listening : σ → Prop} {plan : LoadPlan}
    {bytes : ClassName → Option Bytes} {l : Loading σ}
    (h : l.Follows view listening plan bytes) : l.Stores view bytes := by
  induction h with
  | done result state => exact .done result state
  | load allocate name resume bytes answered h ih => exact .load bytes allocate _ answered ih

end Machines

/-- A scripted machine stores what is returned, whether its notification is on or off. -/
theorem ScriptedVm.storesReturned (allocate : Allocator) :
    (machine allocate).StoresReturned bytesOf? where
  keeps := fun vm enabled => (delivers allocate vm.script).keeps vm enabled
  stores := by
    intro vm c
    cases hhook : vm.hookEnabled with
    | true => exact ((delivers allocate vm.script).loads vm c ⟨rfl, hhook⟩).stores
    | false =>
      simp only [machine, retransform, hhook]
      split
      · exact .done _ vm
      · exact .done _ vm

end DexWeave
