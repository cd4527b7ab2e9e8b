import Fabula.Proofs.Lookahead
import Fabula.Proofs.Parallel

namespace Fabula.Play

/-!
# Plays abreast

Plays whose flows agree apart from output, line tags and numbers, in worlds that are
alike, advance together: one stops, fails or goes on exactly when the other does, and
both make the same stroke.
-/

variable {σ τ : Type} {view : Audience σ → τ} {quiet : CallbackId → Prop} {host : Host σ}
  {setup : Setup}

/-- Plays that go on alike. -/
structure Abreast
    (view : Audience σ → τ)
    (quiet : CallbackId → Prop)
    (left right : Play σ) :
    Prop where
  flow : left.flow.core = right.flow.core
  world : World.Alike view quiet left.world right.world

namespace Abreast

variable {left right : Play σ}

theorem symm
    (abreast : Abreast view quiet left right) :
    Abreast view quiet right left :=
  ⟨abreast.flow.symm, abreast.world.symm⟩

theorem trans
    {other : Play σ}
    (abreast : Abreast view quiet left right)
    (further : Abreast view quiet right other) :
    Abreast view quiet left other :=
  ⟨abreast.flow.trans further.flow, abreast.world.trans further.world⟩

theorem ip
    (abreast : Abreast view quiet left right) :
    left.flow.ip = right.flow.ip :=
  (Flow.Still.start abreast.flow).reads Flow.ip fun _ => rfl

/-- A step has the same result and keeps plays abreast. -/
theorem step
    (impartial : host.Impartial setup view quiet)
    (abreast : Abreast view quiet left right)
    (address : Nat) :
    (left.step setup host address).1 = (right.step setup host address).1 ∧
      World.Alike view quiet
        (left.step setup host address).2.world (right.step setup host address).2.world ∧
      Flow.Parallel left.flow right.flow
        (left.step setup host address).2.flow (right.step setup host address).2.flow := by
  have bridge := World.alike_bridge impartial
  have entered :=
    (Flow.Still.start abreast.flow).map
      (fun flow => { flow with ip := some (address + 1) }) fun _ => ⟨rfl, rfl, rfl, rfl⟩
  have changes := Flow.next_parallel abreast.flow setup left.world.store address
  rw [show right.flow.next setup left.world.store address = _ from
    Flow.next_congr (bridge.globals abreast.world) setup address right.flow] at changes
  exact bridge.step (fun value parallel => parallel.push value) (fun _ _ _ _ _ => trivial)
    abreast.world entered.parallel changes

/-- The fallback is offered on both sides or on neither. -/
theorem fallback
    (abreast : Abreast view quiet left right) :
    left.flow.fallback?.map Choice.unnumbered = right.flow.fallback?.map Choice.unnumbered := by
  refine (Flow.Still.start abreast.flow).reads
    (fun flow => flow.fallback?.map Choice.unnumbered) fun flow => ?_
  by_cases withheld : (flow.ended || !flow.choices.isEmpty) = true
  · simp only [Flow.fallback?, Flow.core, withheld, if_true]
  · simp only [Flow.fallback?, Flow.core, withheld, Bool.false_eq_true, if_false,
      Option.map_map]
    rfl

/-- Whether it succeeds or fails, a plain advance does the same on both sides. -/
theorem advance
    (discreet : host.Discreet setup view quiet)
    (abreast : Abreast view quiet left right)
    {result : Except Error Unit}
    {next : Play σ}
    (moved : left.plainAdvance? setup host = some (result, next)) :
    ∃ other,
      right.plainAdvance? setup host = some (result, other) ∧
        Abreast view quiet next other ∧
        Flow.Parallel left.flow right.flow next.flow other.flow := by
  cases here : left.flow.ip with
  | some address =>
      obtain ⟨same, world, flow⟩ := abreast.step discreet.impartial address
      rw [plainAdvance?_of_ip here, Option.some.injEq] at moved
      rw [moved] at same world flow
      refine ⟨(right.step setup host address).2, ?_, ⟨flow.core, world⟩, flow⟩
      exact plainAdvance?_of_result (abreast.ip ▸ here) same
  | none =>
      have stopped : right.flow.ip = none := abreast.ip ▸ here
      have offered := abreast.fallback
      simp only [plainAdvance?_of_stopped here, takeFallback?, Option.map_map,
        Option.map_eq_some_iff] at moved
      obtain ⟨choice, taken, continued⟩ := moved
      cases continued
      rw [taken, Option.map_some, eq_comm, Option.map_eq_some_iff] at offered
      obtain ⟨other, otherTaken, numbered⟩ := offered
      have parallel := Flow.select_parallel abreast.flow setup.story numbered.symm
      refine
        ⟨(right.emit setup [.fallbackChosen other.target]).select setup other, ?_,
          ⟨parallel.core, abreast.world.log _ _⟩, parallel⟩
      simp only [plainAdvance?_of_stopped stopped, takeFallback?, otherTaken, Option.map_some]

theorem stopped
    (abreast : Abreast view quiet left right)
    (ended : left.plainAdvance? setup host = none) :
    right.plainAdvance? setup host = none := by
  cases here : left.flow.ip with
  | some address =>
      simp [plainAdvance?_of_ip here] at ended
  | none =>
      have offered := abreast.fallback
      simp only [plainAdvance?_of_stopped here, takeFallback?, Option.map_eq_none_iff] at ended
      rw [ended, Option.map_none, eq_comm, Option.map_eq_none_iff] at offered
      simp only [plainAdvance?_of_stopped (abreast.ip ▸ here), takeFallback?, offered,
        Option.map_none]

end Abreast

namespace PlainRun

/-- A run is followed step by step, and equal output stays equal. -/
theorem abreast
    (discreet : host.Discreet setup view quiet)
    {count : Nat}
    {left right leftLast : Play σ}
    (run : PlainRun setup host count left leftLast)
    (start : Abreast view quiet left right) :
    ∃ rightLast,
      PlainRun setup host count right rightLast ∧
        Abreast view quiet leftLast rightLast ∧
        (left.flow.output = right.flow.output →
          leftLast.flow.output = rightLast.flow.output) := by
  induction run with
  | refl =>
      exact ⟨right, .refl right, start, id⟩
  | advance _ moved inductionHypothesis =>
      obtain ⟨middle, run, abreast, outputs⟩ := inductionHypothesis start
      obtain ⟨last, lastMoved, lastAbreast, parallel⟩ := abreast.advance discreet moved
      obtain ⟨stroke, left, right, _⟩ := parallel.stroke
      refine ⟨last, .advance run lastMoved, lastAbreast, fun same => ?_⟩
      rw [left, right, outputs same]

end PlainRun

end Fabula.Play
