import Fabula.CallStack
import Mathlib.Data.List.Basic

namespace Fabula

/-!
# Frames

What the operations on a call stack make of its frames, the outermost one first: a call
adds an empty frame, a return takes the last one away, and a temporary that is written
changes one frame in its place.  So whatever is known of every frame is kept by all of them
as soon as it is known of empty frames, or of a frame that a temporary is written to.
-/

/-! ## Temporaries of frames -/

namespace Frame

variable {frame : Frame} {name : String} {value : Value}

/-- A frame without its temporaries. -/
def bare (frame : Frame) : Frame :=
  { frame with temps := [] }

/-- Giving a temporary a value adds at most that value. -/
theorem mem_assign
    {temps : List (String × Value)}
    {entry : String × Value}
    (member : entry ∈ assign name value temps) :
    entry.2 = value ∨ entry ∈ temps := by
  induction temps with
  | nil =>
      simp only [assign, List.mem_singleton] at member
      exact .inl (member ▸ rfl)
  | cons first rest inductionHypothesis =>
      simp only [assign] at member
      split at member
      · rcases List.mem_cons.mp member with rfl | later
        · exact .inl rfl
        · exact .inr (List.mem_cons_of_mem first later)
      · rcases List.mem_cons.mp member with rfl | later
        · exact .inr List.mem_cons_self
        · exact (inductionHypothesis later).imp_right (List.mem_cons_of_mem first)

theorem lookup_assign
    (name other : String)
    (value : Value)
    (temps : List (String × Value)) :
    (assign name value temps).lookup other =
      if other = name then some value else temps.lookup other := by
  induction temps with
  | nil =>
      by_cases same : other = name
      · simp [assign, same]
      · simp [assign, List.lookup_cons, beq_eq_false_iff_ne.mpr same, same]
  | cons entry rest inductionHypothesis =>
      obtain ⟨first, held⟩ := entry
      simp only [assign]
      by_cases own : first = name
      · subst own
        by_cases same : other = first
        · simp [same]
        · simp [List.lookup_cons, beq_eq_false_iff_ne.mpr same, same]
      · rw [if_neg own, List.lookup_cons, List.lookup_cons, inductionHypothesis]
        by_cases here : other = first
        · simp [here, own]
        · simp [beq_eq_false_iff_ne.mpr here]

theorem mem_of_temp?
    (held : frame.temp? name = some value) :
    (name, value) ∈ frame.temps := by
  obtain ⟨before, after, split, _⟩ := List.lookup_eq_some_iff.mp held
  simp [split]

theorem temp?_setTemp
    (frame : Frame)
    (name other : String)
    (value : Value) :
    (frame.setTemp name value).temp? other =
      if other = name then some value else frame.temp? other :=
  lookup_assign name other value frame.temps

end Frame

namespace CallStack

variable {stack rest : CallStack} {kind : FrameKind} {frame : Frame} {index : Nat} {name : String}
  {value : Value}

/-- The frame of the story itself, apart from its temporaries. -/
def ground (stack : CallStack) : Frame :=
  { stack.outermost with temps := [] }

/-- The temporary with a name in the frame at a position. -/
def temp? (stack : CallStack) (index : Nat) (name : String) : Option Value :=
  (stack.frame? index).bind fun frame => frame.temp? name

theorem temp?_topIndex
    (stack : CallStack)
    (name : String) :
    stack.temp? stack.topIndex name = stack.top.temp? name := by
  rw [temp?, frame?_topIndex, Option.bind_some]

theorem outermost_mem_frames :
    stack.outermost ∈ stack.frames :=
  List.mem_cons_self

/-! ## Calls and returns -/

theorem frames_start :
    CallStack.start.frames = [Frame.root] :=
  rfl

theorem frames_push
    (stack : CallStack)
    (kind : FrameKind)
    (returnTo : Nat)
    (callerEval : Bool) :
    (stack.push kind returnTo callerEval).frames =
      stack.frames ++ [⟨kind, returnTo, callerEval, []⟩] := by
  simp [push, frames]

@[simp]
theorem ground_push
    (stack : CallStack)
    (kind : FrameKind)
    (returnTo : Nat)
    (callerEval : Bool) :
    (stack.push kind returnTo callerEval).ground = stack.ground :=
  rfl

theorem frames_clear
    (stack : CallStack) :
    stack.clear.frames = [stack.ground] :=
  rfl

@[simp]
theorem ground_clear
    (stack : CallStack) :
    stack.clear.ground = stack.ground :=
  rfl

/-- A stack without calls or temporaries is told by its ground. -/
theorem clear_eq_start
    (ground : stack.ground = Frame.root) :
    stack.clear = .start :=
  congrArg (CallStack.mk []) ground

/-- A frame that is closed is the innermost one, and has the kind that is asked for. -/
theorem of_pop?
    (popped : stack.pop? kind = some (frame, rest)) :
    frame.kind = kind ∧ stack.calls = frame :: rest.calls ∧ stack.outermost = rest.outermost := by
  simp only [pop?] at popped
  split at popped
  · cases popped
  · next innermost calls held =>
      split at popped
      · next same =>
          cases popped
          exact ⟨same, held, rfl⟩
      · cases popped

theorem frames_of_pop?
    (popped : stack.pop? kind = some (frame, rest)) :
    stack.frames = rest.frames ++ [frame] := by
  obtain ⟨_, calls, outermost⟩ := of_pop? popped
  simp [frames, calls, outermost]

theorem ground_of_pop?
    (popped : stack.pop? kind = some (frame, rest)) :
    rest.ground = stack.ground := by
  rw [ground, ground, (of_pop? popped).2.2]

/-- Temporaries of frames that two stacks share are the same. -/
theorem temp?_of_frames
    {more : List Frame}
    (shared : stack.frames = rest.frames ++ more)
    (inside : index < rest.depth)
    (name : String) :
    stack.temp? index name = rest.temp? index name := by
  rw [temp?, temp?, frame?, frame?, shared, List.getElem?_append_left]
  exact rest.length_frames ▸ inside

/-! ## Frames that change in their place -/

/-- A call that is counted from the innermost one is changed where the other count finds it. -/
theorem reverse_modify
    {calls : List Frame}
    (inside : index < calls.length)
    (change : Frame → Frame) :
    (calls.modify (calls.length - (index + 1)) change).reverse =
      calls.reverse.modify index change := by
  refine List.ext_getElem (by simp) fun position before after => ?_
  simp only [List.length_reverse, List.length_modify] at before
  have same : calls.length - (index + 1) = calls.length - 1 - position ↔ index = position := by
    omega
  simp only [List.getElem_reverse, List.getElem_modify, List.length_modify, same]

/-- Frames are changed at their position from the outermost one on. -/
theorem frames_modify
    (stack : CallStack)
    (index : Nat)
    (change : Frame → Frame) :
    (stack.modify index change).frames = stack.frames.modify index change := by
  obtain ⟨calls, outermost⟩ := stack
  cases index with
  | zero =>
      simp [modify, frames]
  | succ index =>
      simp only [modify, frames, topIndex, Nat.add_one_ne_zero, if_false, List.modify_succ_cons]
      by_cases inside : index + 1 ≤ calls.length
      · simp only [inside, if_true, reverse_modify inside]
      · have outside : calls.reverse.length ≤ index := by
          simpa using Nat.le_of_not_lt inside
        simp only [inside, if_false, List.modify_eq_self outside]

section SetTempAt

variable (stack : CallStack) (index : Nat) (name : String) (value : Value)

theorem frames_setTempAt :
    (stack.setTempAt index name value).frames =
      stack.frames.modify index fun frame => frame.setTemp name value :=
  frames_modify stack index _

@[simp]
theorem depth_setTempAt :
    (stack.setTempAt index name value).depth = stack.depth := by
  rw [← length_frames, frames_setTempAt, List.length_modify, length_frames]

@[simp]
theorem topIndex_setTempAt :
    (stack.setTempAt index name value).topIndex = stack.topIndex :=
  Nat.succ.inj (stack.depth_setTempAt index name value)

theorem frame?_setTempAt (other : Nat) :
    (stack.setTempAt index name value).frame? other =
      (stack.frame? other).map fun frame =>
        if index = other then frame.setTemp name value else frame := by
  rw [frame?, frames_setTempAt, List.getElem?_modify]
  rfl

/-- Kinds, return addresses and modes of frames stay when temporaries are written. -/
theorem bare_setTempAt :
    (stack.setTempAt index name value).frames.map Frame.bare = stack.frames.map Frame.bare := by
  refine List.ext_getElem? fun position => ?_
  have written := stack.frame?_setTempAt index name value position
  rw [frame?, frame?] at written
  rw [List.getElem?_map, List.getElem?_map, written, Option.map_map]
  refine Option.map_congr fun frame _ => ?_
  rw [Function.comp_apply]
  split <;> rfl

@[simp]
theorem ground_setTempAt :
    (stack.setTempAt index name value).ground = stack.ground :=
  (List.cons.inj (stack.bare_setTempAt index name value)).1

theorem kinds_setTempAt :
    (stack.setTempAt index name value).calls.map Frame.kind = stack.calls.map Frame.kind := by
  have bare := (List.cons.inj (stack.bare_setTempAt index name value)).2
  rw [List.map_reverse, List.map_reverse, List.reverse_inj] at bare
  have kinds := congrArg (List.map Frame.kind) bare
  rw [List.map_map, List.map_map] at kinds
  exact kinds

/-- A temporary that is written holds the value. -/
theorem temp?_setTempAt
    (inside : (stack.frame? index).isSome = true) :
    (stack.setTempAt index name value).temp? index name = some value := by
  obtain ⟨frame, here⟩ := Option.isSome_iff_exists.mp inside
  simp [temp?, frame?_setTempAt, here, Frame.temp?_setTemp]

/-- Other temporaries hold what they held. -/
theorem temp?_setTempAt_of_ne
    {other : Nat}
    {otherName : String}
    (apart : (index, name) ≠ (other, otherName)) :
    (stack.setTempAt index name value).temp? other otherName = stack.temp? other otherName := by
  simp only [temp?, frame?_setTempAt]
  cases stack.frame? other with
  | none => rfl
  | some frame =>
      simp only [Option.map_some, Option.bind_some]
      split
      · next same =>
          subst same
          rw [Frame.temp?_setTemp, if_neg fun sameName => apart (by rw [sameName])]
      · rfl

end SetTempAt

/-! ## What is known of every frame -/

section Every

variable {Known : Frame → Prop}

theorem forall_push
    {returnTo : Nat}
    {callerEval : Bool} :
    (∀ frame ∈ (stack.push kind returnTo callerEval).frames, Known frame) ↔
      (∀ frame ∈ stack.frames, Known frame) ∧ Known ⟨kind, returnTo, callerEval, []⟩ := by
  rw [frames_push, List.forall_mem_append, List.forall_mem_singleton]

theorem forall_of_pop?
    (popped : stack.pop? kind = some (frame, rest))
    (known : ∀ frame ∈ stack.frames, Known frame) :
    (∀ frame ∈ rest.frames, Known frame) ∧ Known frame := by
  rwa [frames_of_pop? popped, List.forall_mem_append, List.forall_mem_singleton] at known

theorem forall_setTempAt
    (known : ∀ frame ∈ stack.frames, Known frame)
    (written : ∀ frame, Known frame → Known (frame.setTemp name value)) :
    ∀ frame ∈ (stack.setTempAt index name value).frames, Known frame := by
  intro frame member
  obtain ⟨position, here⟩ := List.mem_iff_getElem?.mp member
  have found := (stack.frame?_setTempAt index name value position).symm.trans here
  obtain ⟨old, held, rfl⟩ := Option.map_eq_some_iff.mp found
  have kept := known old (List.mem_of_getElem? held)
  split
  · exact written old kept
  · exact kept

end Every

end CallStack

end Fabula
