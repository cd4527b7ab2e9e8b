import Fabula.Proofs.Step
import Fabula.Proofs.Stroke

namespace Fabula

/-!
# Parallel flows

What a story does next does not depend on the output outside unfinished texts, on the
tags of the line or on the number of the fallback.  Two flows that agree in everything
else make the same strokes, record the same tags, fail alike and ask for the same, so
they stay side by side.
-/

namespace Agree

variable {ε α β : Type}

theorem refl
    (result : Except ε α) :
    Agree Eq result result := by
  cases result with
  | error error =>
      exact .error error
  | ok value =>
      exact .ok rfl

theorem bind
    {Related : α → α → Prop}
    {Next : β → β → Prop}
    {left right : Except ε α}
    {leftRest rightRest : α → Except ε β}
    (agree : Agree Related left right)
    (rest : ∀ a b, Related a b → Agree Next (leftRest a) (rightRest b)) :
    Agree Next (left >>= leftRest) (right >>= rightRest) := by
  cases agree with
  | error error =>
      exact .error error
  | ok related =>
      exact rest _ _ related

/-- The same computation on both sides. -/
theorem bind_same
    {Next : β → β → Prop}
    (result : Except ε α)
    {leftRest rightRest : α → Except ε β}
    (rest : ∀ value, Agree Next (leftRest value) (rightRest value)) :
    Agree Next (result >>= leftRest) (result >>= rightRest) := by
  refine (refl result).bind ?_
  rintro value _ rfl
  exact rest value

theorem atAddress
    {Related : α → α → Prop}
    {left right : Except RuntimeFault α}
    (agree : Agree Related left right)
    (address : Nat) :
    Agree Related (Flow.atAddress address left) (Flow.atAddress address right) := by
  cases agree with
  | error fault =>
      exact .error _
  | ok related =>
      exact .ok related

theorem alone
    {Related : Flow → Flow → Prop}
    {left right : Except Error Flow}
    (agree : Agree Related left right) :
    Corresponding Related (Flow.alone left) (Flow.alone right) := by
  cases agree with
  | error error =>
      exact .error error
  | ok related =>
      exact .ok ⟨rfl, related⟩

end Agree

/-- What a tag adds to other scopes does not depend on the tags of the line. -/
theorem Tags.clearLine_push
    (tags : Tags)
    (tag : String) :
    (tags.clearLine.push tag).clearLine = (tags.push tag).clearLine := by
  obtain ⟨phase, _, _, _, _⟩ := tags
  cases phase <;> rfl

theorem Tags.line_push
    (tags : Tags)
    (tag : String) :
    (tags.push tag).line = tags.line ++ [tag] := by
  obtain ⟨phase, _, _, _, _⟩ := tags
  cases phase <;> rfl

/-- A choice apart from its number. -/
def Choice.unnumbered (choice : Choice) : Choice :=
  { choice with index := 0 }

namespace Flow

/-- What decides how a flow goes on. -/
def core (flow : Flow) : Flow :=
  { flow with
    output := ⟨flow.output.inner⟩
    tags := flow.tags.clearLine
    fallback := flow.fallback.map Choice.unnumbered }

/-- Two flows were changed alike, and neither in its output nor in the tags of its line. -/
structure Still (a b p q : Flow) : Prop where
  core : p.core = q.core
  leftOutput : p.output = a.output
  rightOutput : q.output = b.output
  leftLine : p.tags.line = a.tags.line
  rightLine : q.tags.line = b.tags.line
  fallback : a.fallback = b.fallback → p.fallback = q.fallback

/-- Two flows were changed alike, with the same stroke and the same tags. -/
structure Parallel (a b p q : Flow) : Prop where
  core : p.core = q.core
  stroke :
    ∃ stroke : Stroke,
      p.output = stroke.apply a.output ∧
        q.output = stroke.apply b.output ∧
        (stroke = .newline → p.ip.isSome = true)
  line :
    ∃ tagging : List String → List String,
      p.tags.line = tagging a.tags.line ∧
        q.tags.line = tagging b.tags.line
  /-- Fallbacks that had the same number still have. -/
  fallback : a.fallback = b.fallback → p.fallback = q.fallback

/-- A change that stays away from the output and from the tags of the line. -/
structure Silent (change : Flow → Flow) : Prop where
  core : ∀ {p q : Flow}, p.core = q.core → (change p).core = (change q).core
  output : ∀ flow, (change flow).output = flow.output
  line : ∀ flow, (change flow).tags.line = flow.tags.line
  fallback :
    ∀ {p q : Flow},
      p.core = q.core →
      p.fallback = q.fallback →
      (change p).fallback = (change q).fallback

namespace Silent

/-- A change that does not look at what it stays away from. -/
theorem of_core
    {change : Flow → Flow}
    (apart :
      ∀ flow,
        (change flow).core = change flow.core ∧
          (change flow).output = flow.output ∧
          (change flow).tags.line = flow.tags.line ∧
          (change flow).fallback = flow.fallback) :
    Silent change where
  core {p q} same := by
    rw [(apart p).1, (apart q).1, same]
  output flow := (apart flow).2.1
  line flow := (apart flow).2.2.1
  fallback {p q} _ same := by
    rw [(apart p).2.2.2, (apart q).2.2.2, same]

theorem offer
    (invisible : Bool)
    (text : String)
    (tags : List String)
    (target : Nat) :
    Silent (Flow.offer · invisible text tags target) := by
  cases invisible with
  | false =>
      exact .of_core fun _ => ⟨rfl, rfl, rfl, rfl⟩
  | true =>
      refine ⟨fun same => ?_, fun _ => rfl, fun _ => rfl, fun same _ => ?_⟩
      · exact congrArg
          (fun flow : Flow =>
            { flow with fallback := some ⟨0, text, tags, target, flow.callStack⟩ })
          same
      · have offered :=
          congrArg
            (fun flow : Flow =>
              some (Choice.mk flow.choices.length text tags target flow.callStack))
            same
        exact offered

theorem visit
    (container : Container)
    (index : Nat) :
    Silent (Flow.visit · container index) := by
  cases knot : container.isKnot with
  | false =>
      exact .of_core fun flow => by simp [Flow.visit, Flow.core, knot]
  | true =>
      refine .of_core fun flow => ⟨?_, rfl, ?_, rfl⟩
      · simp only [Flow.visit, Flow.core, knot]
        rfl
      · simp only [Flow.visit, knot]
        rfl

theorem enter
    (story : Story)
    (id : UInt32) :
    Silent (Flow.enter · story id) := by
  have inside : Silent (fun flow => { flow with containers := flow.containers ++ [id] }) :=
    .of_core fun _ => ⟨rfl, rfl, rfl, rfl⟩
  simp only [Flow.enter]
  cases story.container? id with
  | none =>
      exact inside
  | some container =>
      have visited := visit container id.toNat
      refine
        ⟨fun same => visited.core (inside.core same), fun flow => ?_, fun flow => ?_,
          fun same number => visited.fallback (inside.core same) (inside.fallback same number)⟩
      · exact (visited.output _).trans (inside.output flow)
      · exact (visited.line _).trans (inside.line flow)

end Silent

variable {a b p q : Flow}

namespace Still

theorem start
    (same : a.core = b.core) :
    Still a b a b :=
  ⟨same, rfl, rfl, rfl, rfl, id⟩

theorem silently
    (still : Still a b p q)
    {change : Flow → Flow}
    (silent : Silent change) :
    Still a b (change p) (change q) where
  core := silent.core still.core
  leftOutput := (silent.output p).trans still.leftOutput
  rightOutput := (silent.output q).trans still.rightOutput
  leftLine := (silent.line p).trans still.leftLine
  rightLine := (silent.line q).trans still.rightLine
  fallback number := silent.fallback still.core (still.fallback number)

theorem map
    (still : Still a b p q)
    (change : Flow → Flow)
    (apart :
      ∀ flow,
        (change flow).core = change flow.core ∧
          (change flow).output = flow.output ∧
          (change flow).tags.line = flow.tags.line ∧
          (change flow).fallback = flow.fallback) :
    Still a b (change p) (change q) :=
  still.silently (.of_core apart)

/-- What does not depend on output, line tags or numbers is the same on both sides. -/
theorem reads
    {γ : Type}
    (still : Still a b p q)
    (view : Flow → γ)
    (core : ∀ flow, view flow.core = view flow) :
    view p = view q := by
  rw [← core p, still.core, core q]

theorem inner
    (still : Still a b p q) :
    p.output.inner = q.output.inner :=
  congrArg (fun flow => flow.output.pieces) still.core

theorem push
    (still : Still a b p q)
    (value : Value) :
    Still a b (p.push value) (q.push value) :=
  still.map (Flow.push · value) fun _ => ⟨rfl, rfl, rfl, rfl⟩

theorem goTo
    (still : Still a b p q)
    (story : Story)
    (target : Nat) :
    Still a b (p.goTo story target).flow (q.goTo story target).flow :=
  still.map (fun flow => (flow.goTo story target).flow) fun _ => ⟨rfl, rfl, rfl, rfl⟩

theorem pop
    (still : Still a b p q)
    (address : Nat) :
    Agree (fun left right => left.1 = right.1 ∧ Still a b left.2 right.2)
      (p.pop address) (q.pop address) := by
  have same : p.eval = q.eval := still.reads Flow.eval fun _ => rfl
  simp only [Flow.pop, Flow.pop?, same]
  cases q.eval with
  | nil =>
      exact .error _
  | cons value rest =>
      refine .ok ⟨rfl, ?_⟩
      exact still.map (fun flow => { flow with eval := rest }) fun _ => ⟨rfl, rfl, rfl, rfl⟩

theorem popIf
    (still : Still a b p q)
    (asked : Bool)
    (address : Nat) :
    Agree (fun left right => left.1 = right.1 ∧ Still a b left.2 right.2)
      (p.popIf asked address) (q.popIf asked address) := by
  cases asked with
  | false =>
      exact .ok ⟨rfl, still⟩
  | true =>
      refine (still.pop address).bind ?_
      rintro ⟨value, left⟩ ⟨_, right⟩ ⟨rfl, after⟩
      exact .ok ⟨rfl, after⟩

/-! ### Operators -/

theorem draw
    (still : Still a b p q)
    (low high : Int32) :
    (p.draw low high).1 = (q.draw low high).1 ∧
      Still a b (p.draw low high).2 (q.draw low high).2 := by
  have same : p.rng = q.rng := still.reads Flow.rng fun _ => rfl
  refine ⟨by simp only [Flow.draw, same], ?_⟩
  exact still.map (fun flow => (flow.draw low high).2) fun _ => ⟨rfl, rfl, rfl, rfl⟩

theorem applyBinary
    (still : Still a b p q)
    (operator : BinaryOperator)
    (left right : Value) :
    Agree (fun one other => one.1 = other.1 ∧ Still a b one.2 other.2)
      (p.applyBinary operator left right) (q.applyBinary operator left right) := by
  simp only [Flow.applyBinary]
  split
  · next low high _ _ =>
      obtain ⟨same, after⟩ := still.draw low high
      exact .ok ⟨congrArg Value.int same, after⟩
  · exact .bind_same _ fun result => .ok ⟨rfl, still⟩

theorem binary
    (still : Still a b p q)
    (operator : BinaryOperator)
    (address : Nat) :
    Agree (Still a b) (p.binary operator address) (q.binary operator address) := by
  refine (still.pop address).bind ?_
  rintro ⟨right, _⟩ ⟨_, _⟩ ⟨rfl, still⟩
  refine (still.pop address).bind ?_
  rintro ⟨left, _⟩ ⟨_, _⟩ ⟨rfl, still⟩
  refine ((still.applyBinary operator left right).atAddress address).bind ?_
  rintro ⟨result, _⟩ ⟨_, _⟩ ⟨rfl, still⟩
  exact .ok (still.push result)

theorem pickFlag
    (still : Still a b p q)
    (set : FlagSet) :
    (p.pickFlag set).1 = (q.pickFlag set).1 ∧
      Still a b (p.pickFlag set).2 (q.pickFlag set).2 := by
  obtain ⟨same, after⟩ := still.draw 0 (Int32.ofNat set.size - 1)
  simp only [Flow.pickFlag, same]
  split
  · exact ⟨rfl, still⟩
  · split
    · exact ⟨rfl, after⟩
    · exact ⟨rfl, after⟩

theorem applyUnary
    (still : Still a b p q)
    (story : Story)
    (operator : UnaryOperator)
    (operand : Value) :
    Agree (fun one other => one.1 = other.1 ∧ Still a b one.2 other.2)
      (p.applyUnary story operator operand) (q.applyUnary story operator operand) := by
  cases operator with
  | not =>
      exact .ok ⟨rfl, still⟩
  | listRandom =>
      refine .bind_same _ fun set => ?_
      obtain ⟨same, after⟩ := still.pickFlag set
      exact .ok ⟨congrArg Value.list same, after⟩
  | readCountVar =>
      refine .bind_same _ fun target => .ok ⟨?_, still⟩
      exact still.reads (fun flow => Value.int (flow.readCountAt story target).toInt32)
        fun _ => rfl
  | turns =>
      refine .bind_same _ fun target => .ok ⟨?_, still⟩
      exact still.reads (fun flow => Value.int (flow.turnsSince story target)) fun _ => rfl
  | _ =>
      exact .bind_same _ fun _ => .ok ⟨rfl, still⟩

theorem unary
    (still : Still a b p q)
    (story : Story)
    (operator : UnaryOperator)
    (address : Nat) :
    Agree (Still a b) (p.unary story operator address) (q.unary story operator address) := by
  refine (still.pop address).bind ?_
  rintro ⟨operand, _⟩ ⟨_, _⟩ ⟨rfl, still⟩
  refine ((still.applyUnary story operator operand).atAddress address).bind ?_
  rintro ⟨result, _⟩ ⟨_, _⟩ ⟨rfl, still⟩
  exact .ok (still.push result)

theorem listRange
    (still : Still a b p q)
    (address : Nat) :
    Agree (Still a b) (p.listRange address) (q.listRange address) := by
  refine (still.pop address).bind ?_
  rintro ⟨high, _⟩ ⟨_, _⟩ ⟨rfl, still⟩
  refine (still.pop address).bind ?_
  rintro ⟨low, _⟩ ⟨_, _⟩ ⟨rfl, still⟩
  refine (still.pop address).bind ?_
  rintro ⟨operand, _⟩ ⟨_, _⟩ ⟨rfl, still⟩
  refine .bind_same _ fun set => .bind_same _ fun low => .bind_same _ fun high => ?_
  exact .ok (still.push _)

theorem sequence
    (still : Still a b p q)
    (address : Nat) :
    Agree (Still a b) (p.sequence address) (q.sequence address) := by
  refine (still.pop address).bind ?_
  rintro ⟨elements, _⟩ ⟨_, _⟩ ⟨rfl, still⟩
  refine (still.pop address).bind ?_
  rintro ⟨visits, left⟩ ⟨_, right⟩ ⟨rfl, still⟩
  have containers : left.containers = right.containers :=
    still.reads Flow.containers fun _ => rfl
  have rng : left.rng = right.rng := still.reads Flow.rng fun _ => rfl
  simp only [containers, rng]
  split
  · exact .error _
  · split
    · exact .ok (still.push _)
    · exact .ok (still.push _)

theorem reseed
    (still : Still a b p q)
    (address : Nat) :
    Agree (Still a b) (p.reseed address) (q.reseed address) := by
  refine (still.pop address).bind ?_
  rintro ⟨seed, left⟩ ⟨_, right⟩ ⟨rfl, still⟩
  simp only
  split
  · next number _ =>
      refine .ok (Still.push ?_ .void)
      exact still.map (fun flow => { flow with rng := .ofSeed number.toInt64.toUInt64 })
        fun _ => ⟨rfl, rfl, rfl, rfl⟩
  · exact .error _

theorem duplicate
    (still : Still a b p q)
    (address : Nat) :
    Agree (Still a b) (p.duplicate address) (q.duplicate address) := by
  have same : p.eval = q.eval := still.reads Flow.eval fun _ => rfl
  simp only [Flow.duplicate, same]
  cases q.eval with
  | nil =>
      exact .error _
  | cons top rest =>
      exact .ok (still.push top)

/-! ### Choices -/

theorem addChoice
    (still : Still a b p q)
    (story : Story)
    (instruction : Instruction)
    (address : Nat) :
    Agree (Still a b)
      (p.addChoice story instruction address) (q.addChoice story instruction address) := by
  refine (still.popIf _ address).bind ?_
  rintro ⟨condition, _⟩ ⟨_, _⟩ ⟨rfl, still⟩
  refine (still.popIf _ address).bind ?_
  rintro ⟨choiceOnly, _⟩ ⟨_, _⟩ ⟨rfl, still⟩
  refine (still.popIf _ address).bind ?_
  rintro ⟨start, left⟩ ⟨_, right⟩ ⟨rfl, still⟩
  have claimed : left.tags.takeChoice.1 = right.tags.takeChoice.1 :=
    still.reads (fun flow => flow.tags.takeChoice.1) fun _ => rfl
  have still :=
    still.map (fun flow => { flow with tags := flow.tags.takeChoice.2 })
      fun _ => ⟨rfl, rfl, rfl, rfl⟩
  have visited :=
    still.reads (fun flow => flow.wasVisited story instruction.address) fun _ => rfl
  simp only at claimed visited ⊢
  rw [claimed, visited]
  split
  · exact .ok (still.silently (.offer _ _ _ _))
  · exact .ok still

/-! ### Strokes and tags -/

theorem parallel
    (still : Still a b p q) :
    Parallel a b p q where
  core := still.core
  stroke := ⟨.still, still.leftOutput, still.rightOutput, (by simp)⟩
  line := ⟨id, still.leftLine, still.rightLine⟩
  fallback := still.fallback

/-- The same stroke on both sides. -/
theorem draws
    (still : Still a b p q)
    (stroke : Stroke)
    (continues : stroke = .newline → p.ip.isSome = true) :
    Parallel a b
      { p with output := stroke.apply p.output } { q with output := stroke.apply q.output } where
  core := by
    have inner := stroke.inner_apply_congr still.inner
    have same :=
      congrArg (fun flow : Flow => { flow with output := ⟨(stroke.apply p.output).inner⟩ })
        still.core
    simp only [Flow.core] at same ⊢
    rw [← inner]
    exact same
  stroke :=
    ⟨stroke, congrArg stroke.apply still.leftOutput, congrArg stroke.apply still.rightOutput,
      continues⟩
  line := ⟨id, still.leftLine, still.rightLine⟩
  fallback := still.fallback

theorem appendText
    (still : Still a b p q)
    (text : String) :
    Parallel a b (p.appendText text) (q.appendText text) := by
  have marked : (p.output.appendText text).hasMarker = (q.output.appendText text).hasMarker :=
    Output.hasMarker_congr ((Stroke.text text).inner_apply_congr still.inner)
  simp only [Flow.appendText, marked]
  split
  · have started :=
      still.map (fun flow => { flow with tags := flow.tags.contentStarted })
        fun _ => ⟨rfl, rfl, rfl, rfl⟩
    exact started.draws (.text text) (by simp)
  · exact still.draws (.text text) (by simp)

theorem pushOrWrite
    (still : Still a b p q)
    (value : Value) :
    Parallel a b (p.pushOrWrite value) (q.pushOrWrite value) := by
  have mode : p.evalMode = q.evalMode := still.reads Flow.evalMode fun _ => rfl
  simp only [Flow.pushOrWrite, mode]
  split
  · exact (still.push value).parallel
  · exact still.appendText value.text

theorem endLine
    (still : Still a b p q)
    (continues : p.ip.isSome = true) :
    Parallel a b p.endLine q.endLine := by
  have mode : p.evalMode = q.evalMode := still.reads Flow.evalMode fun _ => rfl
  by_cases evaluating : p.evalMode = true
  · rw [Flow.endLine, Flow.endLine, if_pos evaluating, if_pos (mode ▸ evaluating)]
    exact (still.push _).parallel
  · rw [Flow.endLine, Flow.endLine, if_neg evaluating, if_neg (mode ▸ evaluating)]
    exact still.draws .newline (fun _ => continues)

end Still

namespace Parallel

theorem symm
    (parallel : Parallel a b p q) :
    Parallel b a q p where
  core := parallel.core.symm
  stroke := by
    obtain ⟨stroke, left, right, continues⟩ := parallel.stroke
    have ip : q.core.ip = p.core.ip := by rw [parallel.core]
    exact ⟨stroke, right, left, fun newline => ip ▸ continues newline⟩
  line := by
    obtain ⟨tagging, left, right⟩ := parallel.line
    exact ⟨tagging, right, left⟩
  fallback number := (parallel.fallback number.symm).symm

theorem push
    (parallel : Parallel a b p q)
    (value : Value) :
    Parallel a b (p.push value) (q.push value) :=
  ⟨congrArg (Flow.push · value) parallel.core, parallel.stroke, parallel.line,
    parallel.fallback⟩

theorem pushTag
    (parallel : Parallel a b p q)
    (tag : String) :
    Parallel a b { p with tags := p.tags.push tag } { q with tags := q.tags.push tag } where
  core := by
    have same :=
      congrArg (fun flow : Flow => { flow with tags := (flow.tags.push tag).clearLine })
        parallel.core
    simp only [Flow.core, Tags.clearLine_push] at same ⊢
    exact same
  stroke := parallel.stroke
  line := by
    obtain ⟨tagging, left, right⟩ := parallel.line
    refine ⟨fun line => tagging line ++ [tag], ?_, ?_⟩
    · exact (Tags.line_push p.tags tag).trans (congrArg (· ++ [tag]) left)
    · exact (Tags.line_push q.tags tag).trans (congrArg (· ++ [tag]) right)
  fallback := parallel.fallback

theorem addTag
    (parallel : Parallel a b p q)
    (tag : String) :
    Parallel a b (p.addTag tag) (q.addTag tag) := by
  have inner : p.output.inner = q.output.inner :=
    congrArg (fun flow => flow.output.pieces) parallel.core
  have within := Output.contains_stringMarker_congr inner
  simp only [Flow.addTag, within]
  split
  · exact
      ⟨congrArg (fun flow : Flow => { flow with tags := flow.tags.pushChoice tag })
          parallel.core,
        parallel.stroke, parallel.line, parallel.fallback⟩
  · exact parallel.pushTag tag

end Parallel

namespace Still

/-- A marker is closed in both or in neither, and the same text is taken out. -/
theorem closeMarker?
    (still : Still a b p q)
    (marker : Marker) :
    (p.output.closeMarker? marker.val = none ∧ q.output.closeMarker? marker.val = none) ∨
      ∃ text left right,
        p.output.closeMarker? marker.val = some (text, left) ∧
          q.output.closeMarker? marker.val = some (text, right) := by
  have left := Output.closeMarker?_eq_inner marker p.output
  have right := Output.closeMarker?_eq_inner marker q.output
  rw [← still.inner] at right
  cases closed : Output.closeMarker? ⟨p.output.inner⟩ marker.val with
  | none =>
      rw [closed, Option.map_none] at left right
      exact .inl ⟨left, right⟩
  | some parts =>
      rw [closed, Option.map_some] at left right
      exact .inr ⟨_, _, _, left, right⟩

theorem closeText
    (still : Still a b p q)
    (address : Nat) :
    Agree (Parallel a b) (p.closeText address) (q.closeText address) := by
  rcases still.closeMarker? ⟨.stringMarker, rfl⟩ with ⟨left, right⟩ | ⟨text, _, _, left, right⟩
  · simp only [Flow.closeText, left, right]
    exact .error _
  · have pushed :=
      still.map (fun flow => Flow.push { flow with evalMode := true } (.str text))
        fun _ => ⟨rfl, rfl, rfl, rfl⟩
    have drawn := pushed.draws (.close ⟨.stringMarker, rfl⟩) (by simp)
    simp only [Stroke.apply, Flow.push, left, right] at drawn
    simp only [Flow.closeText, left, right]
    exact .ok drawn

theorem closeTag
    (still : Still a b p q)
    (address : Nat) :
    Agree (Parallel a b) (p.closeTag address) (q.closeTag address) := by
  rcases still.closeMarker? ⟨.tagMarker, rfl⟩ with ⟨left, right⟩ | ⟨text, _, _, left, right⟩
  · simp only [Flow.closeTag, left, right]
    exact .error _
  · have drawn := still.draws (.close ⟨.tagMarker, rfl⟩) (by simp)
    simp only [Stroke.apply, left, right] at drawn
    simp only [Flow.closeTag, left, right]
    exact .ok (drawn.addTag text)

/-! ### Variables -/

theorem writeAt
    (still : Still a b p q)
    (value : Value)
    (place : Place) :
    Corresponding (Parallel a b) (p.writeAt value place) (q.writeAt value place) := by
  cases place with
  | temp frame name =>
      have same : p.callStack = q.callStack := still.reads Flow.callStack fun _ => rfl
      simp only [Flow.writeAt, same]
      split
      · have written :=
          still.map
            (fun flow => { flow with callStack := flow.callStack.setTempAt frame name value })
            fun _ => ⟨rfl, rfl, rfl, rfl⟩
        simp only [same] at written
        exact .ok ⟨rfl, written.parallel⟩
      · exact .error _
  | global name =>
      exact .ok ⟨rfl, still.parallel⟩

theorem write
    (still : Still a b p q)
    (name : String)
    (value : Value) :
    Corresponding (Parallel a b) (p.write name value) (q.write name value) := by
  have same : p.place name = q.place name := still.reads (Flow.place · name) fun _ => rfl
  simp only [Flow.write, same]
  exact still.writeAt value _

theorem define
    (still : Still a b p q)
    (redefine : Bool)
    (name : String)
    (value : Value) :
    Corresponding (Parallel a b)
      (p.define redefine name value) (q.define redefine name value) := by
  have held : p.callStack.top.temp? name = q.callStack.top.temp? name :=
    still.reads (fun flow => flow.callStack.top.temp? name) fun _ => rfl
  simp only [Flow.define, held]
  split
  · exact still.write name value
  · have defined :=
      still.map (fun flow => { flow with callStack := flow.callStack.setTemp name value })
        fun _ => ⟨rfl, rfl, rfl, rfl⟩
    exact .ok ⟨rfl, defined.parallel⟩

theorem destination
    (still : Still a b p q)
    (story : Story)
    (store : Store)
    (instruction : Instruction)
    (address : Nat) :
    p.destination story store instruction address =
      q.destination story store instruction address :=
  still.reads (Flow.destination · story store instruction address) fun _ => rfl

/-! ### Transfers of control -/

theorem done
    (still : Still a b p q)
    (story : Story) :
    Corresponding (Parallel a b) (.ok (p.done story)) (.ok (q.done story)) := by
  have same : p.threads = q.threads := still.reads Flow.threads fun _ => rfl
  cases waiting : q.threads with
  | nil =>
      have stopped :=
        still.map (fun flow => { flow with ip := none }) fun _ => ⟨rfl, rfl, rfl, rfl⟩
      simp only [Flow.done, same, waiting] at stopped ⊢
      exact .ok ⟨rfl, stopped.parallel⟩
  | cons parent rest =>
      have resumed :=
        still.map
          (fun flow =>
            { flow with
              threads := rest
              callStack := parent.callStack
              evalMode := parent.evalMode })
          fun _ => ⟨rfl, rfl, rfl, rfl⟩
      simp only [Flow.done, same, waiting]
      exact .ok ⟨rfl, (resumed.goTo story parent.resumeAt).parallel⟩

theorem fork
    (still : Still a b p q)
    (story : Story)
    (target resumeAt : Nat) :
    Parallel a b (p.fork story target resumeAt).flow (q.fork story target resumeAt).flow :=
  (still.map (fun flow => (flow.fork story target resumeAt).flow)
    fun _ => ⟨rfl, rfl, rfl, rfl⟩).parallel

theorem call
    (still : Still a b p q)
    (story : Story)
    (kind : FrameKind)
    (target returnTo : Nat) :
    Parallel a b
      (p.call story kind target returnTo).flow (q.call story kind target returnTo).flow := by
  have pushed :=
    still.map
      (fun flow =>
        Flow.jump
          { flow with callStack := flow.callStack.push kind returnTo flow.evalMode }
          story target)
      fun _ => ⟨rfl, rfl, rfl, rfl⟩
  simp only [Flow.call]
  split
  · have silenced :=
      pushed.map (fun flow => { flow with evalMode := false }) fun _ => ⟨rfl, rfl, rfl, rfl⟩
    exact silenced.draws .functionStart (by simp)
  · exact pushed.parallel

theorem returnFrom
    (still : Still a b p q)
    (story : Story)
    (kind : FrameKind)
    (address : Nat) :
    Corresponding (Parallel a b)
      (p.returnFrom story kind address) (q.returnFrom story kind address) := by
  have same : p.callStack.pop? kind = q.callStack.pop? kind :=
    still.reads (fun flow => flow.callStack.pop? kind) fun _ => rfl
  simp only [Flow.returnFrom, same]
  split
  · exact .error _
  · next frame callStack _ =>
      have left :=
        still.map
          (fun flow =>
            Flow.jump { flow with callStack := callStack, evalMode := frame.callerEval } story
              frame.returnTo)
          fun _ => ⟨rfl, rfl, rfl, rfl⟩
      split
      · exact .ok ⟨rfl, left.draws .functionEnd (by simp)⟩
      · exact .ok ⟨rfl, left.parallel⟩

theorem leaveContainer
    (still : Still a b p q)
    (story : Story)
    (id : UInt32)
    (address : Nat) :
    Corresponding (Parallel a b)
      (p.leaveContainer story id address) (q.leaveContainer story id address) := by
  have same : p.containers = q.containers := still.reads Flow.containers fun _ => rfl
  simp only [Flow.leaveContainer, Flow.leave?, same]
  cases splitLast? (· == id) q.containers with
  | none =>
      exact .error _
  | some parts =>
      have left :=
        still.map (fun flow => { flow with containers := parts.1 }) fun _ => ⟨rfl, rfl, rfl, rfl⟩
      have top : p.callStack.top.kind = q.callStack.top.kind :=
        still.reads (fun flow => flow.callStack.top.kind) fun _ => rfl
      simp only [Option.map_some, top]
      split
      · exact (left.push .void).returnFrom story .function address
      · exact .ok ⟨rfl, left.parallel⟩

theorem divert
    (still : Still a b p q)
    (story : Story)
    (instruction : Instruction)
    (address : Nat) :
    Corresponding (Parallel a b)
      (p.divert story instruction address) (q.divert story instruction address) := by
  refine (still.popIf _ address).bind ?_
  rintro ⟨condition, _⟩ ⟨_, _⟩ ⟨rfl, still⟩
  simp only
  split
  · exact .ok ⟨rfl, (still.goTo story _).parallel⟩
  · exact .ok ⟨rfl, still.parallel⟩

theorem callExternal
    (still : Still a b p q)
    (setup : Setup)
    (name : String)
    (count address : Nat) :
    Corresponding (Parallel a b)
      (p.callExternal setup name count address) (q.callExternal setup name count address) := by
  have same : p.eval = q.eval := still.reads Flow.eval fun _ => rfl
  simp only [Flow.callExternal, same]
  split
  · exact .error _
  · split
    · split
      · exact .ok ⟨rfl, still.call _ _ _ _⟩
      · exact .error _
    · split
      · have taken :=
          still.map (fun flow => { flow with eval := flow.eval.drop count })
            fun _ => ⟨rfl, rfl, rfl, rfl⟩
        simp only [same] at taken
        exact .ok ⟨rfl, taken.parallel⟩
      · exact .error _

end Still

/-- A flow that is changed silently is changed in parallel. -/
theorem alone_of_still
    {left right : Except Error Flow}
    (agree : Agree (Still a b) left right) :
    Corresponding (Parallel a b) (alone left) (alone right) := by
  cases agree with
  | error error =>
      exact .error error
  | ok still =>
      exact .ok ⟨rfl, still.parallel⟩

/-- Flows that agree apart from output, line tags and numbers carry out an instruction alike. -/
theorem execute_parallel
    (still : Still a b p q)
    (continues : p.ip.isSome = true)
    (setup : Setup)
    (store : Store)
    (instruction : Instruction)
    (address : Nat) :
    Corresponding (Parallel a b)
      (execute setup store instruction address p)
      (execute setup store instruction address q) := by
  obtain ⟨command, flag, payload⟩ := instruction
  have pushes (value : Value) :
      Corresponding (Parallel a b)
        (.ok (.of (p.push value))) (.ok (.of (q.push value))) :=
    .ok ⟨rfl, (still.push value).parallel⟩
  have writes (value : Value) :
      Corresponding (Parallel a b)
        (.ok (.of (p.pushOrWrite value))) (.ok (.of (q.pushOrWrite value))) :=
    .ok ⟨rfl, still.pushOrWrite value⟩
  have draws (stroke : Stroke) (other : stroke ≠ .newline) :
      Corresponding (Parallel a b)
        (.ok (.of { p with output := stroke.apply p.output }))
        (.ok (.of { q with output := stroke.apply q.output })) :=
    .ok ⟨rfl, still.draws stroke fun newline => absurd newline other⟩
  cases command with
  | str | int | bool | float | list =>
      exact writes _
  | divertValue | void =>
      exact pushes _
  | newline =>
      exact .ok ⟨rfl, still.endLine continues⟩
  | glue =>
      exact draws .glue (by simp)
  | tag =>
      exact .ok ⟨rfl, still.parallel.addTag _⟩
  | divert =>
      exact still.divert _ _ _
  | divertToVariable =>
      have same : p.targetOf store (setup.story.string payload) address =
          q.targetOf store (setup.story.string payload) address :=
        still.reads (Flow.targetOf · store _ address) fun _ => rfl
      simp only [execute, same]
      exact .bind_same _ fun target => .ok ⟨rfl, (still.goTo _ target).parallel⟩
  | tunnel | function =>
      simp only [execute, still.destination]
      exact .bind_same _ fun target => .ok ⟨rfl, still.call _ _ target _⟩
  | thread =>
      simp only [execute, still.destination]
      exact .bind_same _ fun target => .ok ⟨rfl, still.fork _ target _⟩
  | done =>
      exact still.done _
  | finish =>
      have ended : Silent fun flow => flow.finish.flow :=
        ⟨fun same => congrArg (fun flow : Flow => flow.finish.flow) same, fun _ => rfl,
          fun _ => rfl, fun _ _ => rfl⟩
      exact .ok ⟨rfl, (still.silently ended).parallel⟩
  | tunnelReturn | functionReturn =>
      exact still.returnFrom _ _ _
  | defineTemp =>
      refine (still.pop address).bind ?_
      rintro ⟨value, _⟩ ⟨_, _⟩ ⟨rfl, still⟩
      exact still.define _ _ value
  | setVariable =>
      refine (still.pop address).bind ?_
      rintro ⟨value, _⟩ ⟨_, _⟩ ⟨rfl, still⟩
      exact still.write _ value
  | startEval =>
      have evaluating :=
        still.map (fun flow => { flow with evalMode := true }) fun _ => ⟨rfl, rfl, rfl, rfl⟩
      exact .ok ⟨rfl, evaluating.parallel⟩
  | endEval =>
      have writing :=
        still.map (fun flow => { flow with evalMode := false }) fun _ => ⟨rfl, rfl, rfl, rfl⟩
      exact .ok ⟨rfl, writing.parallel⟩
  | output =>
      refine (still.pop address).bind ?_
      rintro ⟨value, _⟩ ⟨_, _⟩ ⟨rfl, still⟩
      exact .ok ⟨rfl, still.appendText value.text⟩
  | pop =>
      refine (still.pop address).bind ?_
      rintro ⟨value, _⟩ ⟨_, _⟩ ⟨rfl, still⟩
      exact .ok ⟨rfl, still.parallel⟩
  | duplicate =>
      exact alone_of_still (still.duplicate address)
  | pushVariable =>
      have same : p.read store (setup.story.string payload) =
          q.read store (setup.story.string payload) :=
        still.reads (Flow.read · store _) fun _ => rfl
      simp only [execute, same]
      exact .bind_same _ fun value => pushes value
  | valuePointer =>
      have same : p.reference (setup.story.string payload) flag =
          q.reference (setup.story.string payload) flag :=
        still.reads (Flow.reference · _ flag) fun _ => rfl
      simp only [execute, same]
      exact pushes _
  | visit =>
      have same : p.earlierVisits = q.earlierVisits :=
        still.reads Flow.earlierVisits fun _ => rfl
      simp only [execute, same]
      exact pushes _
  | turn =>
      have same : p.turn = q.turn := still.reads Flow.turn fun _ => rfl
      simp only [execute, same]
      exact pushes _
  | readCount =>
      have same : p.visitsOf payload.toNat = q.visitsOf payload.toNat :=
        still.reads (Flow.visitsOf · _) fun _ => rfl
      simp only [execute, same]
      exact pushes _
  | sequence =>
      exact alone_of_still (still.sequence address)
  | seed =>
      exact alone_of_still (still.reseed address)
  | startStr =>
      have opened :=
        still.map (fun flow => { flow with evalMode := false }) fun _ => ⟨rfl, rfl, rfl, rfl⟩
      exact .ok ⟨rfl, opened.draws (.mark ⟨.stringMarker, rfl⟩) (by simp)⟩
  | endStr =>
      exact (still.closeText address).alone
  | startTag =>
      exact draws (.mark ⟨.tagMarker, rfl⟩) (by simp)
  | endTag =>
      exact (still.closeTag address).alone
  | choice =>
      exact alone_of_still (still.addChoice _ _ address)
  | listRange =>
      exact alone_of_still (still.listRange address)
  | binary operator =>
      exact alone_of_still (still.binary operator address)
  | unary operator =>
      exact alone_of_still (still.unary _ operator address)
  | choiceCount =>
      have same : p.choices = q.choices := still.reads Flow.choices fun _ => rfl
      simp only [execute, same]
      exact pushes _
  | startContainer =>
      exact .ok ⟨rfl, (still.silently (.enter _ payload)).parallel⟩
  | endContainer =>
      exact still.leaveContainer _ _ _
  | callExternal =>
      exact still.callExternal _ _ _ _

/-- Flows that agree apart from output, line tags and numbers take the same step. -/
theorem next_parallel
    (same : a.core = b.core)
    (setup : Setup)
    (store : Store)
    (address : Nat) :
    Corresponding (Parallel a b) (a.next setup store address) (b.next setup store address) := by
  have still := Still.start same
  simp only [next]
  split
  · exact still.done _
  · have entered :=
      still.map (fun flow => { flow with ip := some (address + 1) }) fun _ => ⟨rfl, rfl, rfl, rfl⟩
    exact execute_parallel entered rfl setup store _ address

/-- Going on with the same choice, whatever its number. -/
theorem select_parallel
    (same : a.core = b.core)
    (story : Story)
    {left right : Choice}
    (choice : left.unnumbered = right.unnumbered) :
    Parallel a b (a.select story left) (b.select story right) where
  core := by
    obtain ⟨_, text, tags, target, callStack⟩ := left
    obtain ⟨_, _, _, _, _⟩ := right
    simp only [Choice.unnumbered, Choice.mk.injEq, true_and] at choice
    obtain ⟨rfl, rfl, rfl, rfl⟩ := choice
    exact congrArg (Flow.select · story ⟨0, text, tags, target, callStack⟩) same
  stroke := ⟨.still, rfl, rfl, (by simp)⟩
  line := ⟨fun _ => [], rfl, rfl⟩
  fallback _ := rfl

end Flow

end Fabula
