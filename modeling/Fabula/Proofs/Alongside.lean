import Fabula.Proofs.Halting
import Fabula.Proofs.Ordinary

namespace Fabula

/-!
# Lines taken beside output that is kept

A reader takes the output away line by line.  Beside it runs a play that never gives its
output away: its output is that of the reader behind the lines that were taken.  In an
ordinary story no stroke reaches back into those lines, and they are rendered as they were,
so a reader reads what the uncut output is rendered as, however it splits the output into
lines.
-/

/-! ## Rendering behind a line end -/

/-- Only spaces, tabs and line ends follow the last line end. -/
theorem endsLine_of_blank
    (before : List Char)
    {after : List Char}
    (blank : after.all Text.isBlank = true)
    (ordinary : ∀ c ∈ after, Text.isOrdinary c = true) :
    endsLine (before ++ '\n' :: after) = true := by
  refine (endsLine_newline_iff before after).mpr fun c trailing => ?_
  have inside : c ∈ after := (List.rtakeWhile_suffix (· != '\n') after).mem trailing
  have unended := List.mem_rtakeWhile_imp (p := (· != '\n')) trailing
  have kind := ordinary c inside
  rw [bne_iff_ne] at unended
  simpa [Text.isOrdinary, isSpaceOrTab, List.all_eq_true.mp blank c inside, unended] using kind

/-- What follows a line end is rendered on its own. -/
theorem cleanText_append_of_newline
    (before : List Char)
    {after : List Char}
    (ordinary : ∀ c ∈ after, Text.isOrdinary c = true) :
    cleanText (before ++ ['\n'] ++ after) = cleanText (before ++ ['\n']) ++ cleanText after := by
  have ends : endsLine (before ++ ['\n']) = true :=
    endsLine_of_blank before rfl fun _ absent => nomatch absent
  cases blank : after.all Text.isBlank with
  | true =>
      have lines : cleanLines (before ++ ['\n'] ++ after) = cleanLines (before ++ ['\n']) := by
        rw [List.append_assoc, List.singleton_append, cleanLines_split _ _ _ rfl,
          cleanLines_split _ _ _ rfl, cleanLines_eq_nil_iff.mpr blank]
        simp [cleanLines_of_unended]
      have whole : endsLine (before ++ ['\n'] ++ after) = true := by
        rw [List.append_assoc]
        exact endsLine_of_blank before blank ordinary
      rw [cleanText_of_blank blank, List.append_nil, cleanText, cleanText, lines, whole, ends]
  | false =>
      obtain ⟨gap, joint, meeting⟩ := cleanText_append (before ++ ['\n']) blank
      have none : gap = [] := meeting.mpr (by simp [meets, ends])
      rw [joint, none, List.append_nil]

theorem gluedAfter_ordinary
    {pieces : List Piece}
    (ordinary : ∀ piece ∈ pieces, piece.Ordinary) :
    gluedAfter false pieces = false := by
  induction pieces with
  | nil =>
      rfl
  | cons piece rest inductionHypothesis =>
      have later := inductionHypothesis fun other inside =>
        ordinary other (List.mem_cons_of_mem piece inside)
      have here := ordinary piece List.mem_cons_self
      cases piece with
      | glue =>
          exact here.elim
      | _ =>
          exact later

theorem rawText_ordinary
    (glued : Bool)
    {pieces : List Piece}
    (ordinary : ∀ piece ∈ pieces, piece.Ordinary) :
    ∀ c ∈ rawText glued pieces, Text.isOrdinary c = true := by
  induction pieces generalizing glued with
  | nil =>
      intro c inside
      cases inside
  | cons piece rest inductionHypothesis =>
      have later (glued : Bool) := inductionHypothesis glued fun other inside =>
        ordinary other (List.mem_cons_of_mem piece inside)
      have here := ordinary piece List.mem_cons_self
      intro c inside
      cases piece with
      | text s =>
          rcases List.mem_append.mp inside with inside | inside
          · exact here c inside
          · exact later false c inside
      | newline =>
          simp only [rawText] at inside
          split at inside
          · exact later _ c inside
          · rcases List.mem_cons.mp inside with rfl | inside
            · decide
            · exact later _ c inside
      | glue | stringMarker | tagMarker | functionStart | functionEnd =>
          exact later _ c inside

/-- Lines that are complete: whatever is written next starts a new one. -/
structure Settled (front : List Piece) : Prop where
  plain : Output.Plain front
  ended : front = [] ∨ front.getLast? = some .newline

namespace Settled

variable {front : List Piece}

theorem nil :
    Settled [] :=
  ⟨(fun _ absent => nomatch absent), .inl rfl⟩

/-- Another line may be added. -/
theorem append
    (settled : Settled front)
    {pieces body : List Piece}
    (ends : Play.EndsLine pieces body) :
    Settled (front ++ pieces) where
  plain := by
    intro piece inside
    exact (List.mem_append.mp inside).elim (settled.plain piece) (ends.whole piece)
  ended := by
    right
    rw [List.getLast?_append, ends.shape]
    simp

/-- Ordinary pieces behind complete lines are rendered on their own. -/
theorem render_append
    (settled : Settled front)
    {pieces : List Piece}
    (ordinary : ∀ piece ∈ front ++ pieces, piece.Ordinary) :
    render (front ++ pieces) = render front ++ render pieces := by
  have frontOrdinary (piece : Piece) (inside : piece ∈ front) : piece.Ordinary :=
    ordinary piece (List.mem_append_left pieces inside)
  have later (piece : Piece) (inside : piece ∈ pieces) : piece.Ordinary :=
    ordinary piece (List.mem_append_right front inside)
  rcases settled.ended with rfl | ended
  · have blank : render [] = "" := by rfl
    rw [blank, List.nil_append, String.empty_append]
  · obtain ⟨body, rfl⟩ := List.getLast?_eq_some_iff.mp ended
    have bodyOrdinary (piece : Piece) (inside : piece ∈ body) : piece.Ordinary :=
      frontOrdinary piece (List.mem_append_left _ inside)
    have raw : rawText false (body ++ [.newline]) = rawText false body ++ ['\n'] := by
      rw [rawText_append, gluedAfter_ordinary bodyOrdinary]
      rfl
    rw [← String.toList_inj, String.toList_append]
    simp only [render, String.toList_ofList]
    rw [rawText_append, gluedAfter_ordinary frontOrdinary, raw]
    exact cleanText_append_of_newline _ (rawText_ordinary false later)

/-- The last line is what is left when all complete lines are taken away. -/
theorem tail_unique
    {other pieces otherPieces : List Piece}
    (settled : Settled front)
    (otherSettled : Settled other)
    (same : front ++ pieces = other ++ otherPieces)
    (unended : .newline ∉ Output.outer ⟨pieces⟩)
    (otherUnended : .newline ∉ Output.outer ⟨otherPieces⟩) :
    pieces = otherPieces := by
  have short {front other pieces otherPieces between : List Piece}
      (settled : Settled other)
      (longer : other = front ++ between)
      (rest : pieces = between ++ otherPieces)
      (unended : .newline ∉ Output.outer ⟨pieces⟩) :
      pieces = otherPieces := by
    rcases List.eq_nil_or_concat between with rfl | ⟨body, last, shape⟩
    · exact rest
    · rw [List.concat_eq_append] at shape
      subst shape longer rest
      have newline : last = .newline := by
        rcases settled.ended with none | ended
        · simp at none
        · simpa using ended
      have plain : Output.Plain (body ++ [last]) := fun piece inside =>
        settled.plain piece (List.mem_append_right front inside)
      subst newline
      rw [Output.outer_append plain] at unended
      simp at unended
  rcases List.append_eq_append_iff.mp same with
    ⟨between, longer, rest⟩ | ⟨between, longer, rest⟩
  · exact short otherSettled longer rest unended
  · exact (short settled longer rest otherUnended).symm

end Settled

/-! ## Ordinary plays -/

/-- An ordinary story calls no function of the host. -/
theorem Story.Ordinary.uncalled
    {setup : Setup}
    (story : setup.story.Ordinary)
    (binding : Binding) :
    ¬ setup.Calls binding := by
  rintro ⟨address, _, _, here, _⟩
  exact (story.commands _ (Array.mem_of_getElem? here)).2.2 rfl

/-- Only ordinary values are prepared for a variable that is given one. -/
theorem Store.prepare_ordinary
    (store : Store)
    (name : String)
    {value : Value}
    (ordinary : value.Ordinary) :
    Yields (fun write => write.new.Ordinary) (store.prepare name value) := by
  have any : Yields (fun _ => True) (store.index name) := fun _ _ => trivial
  refine any.bind fun index _ => ?_
  simp only
  split
  · exact .ok (ordinary.coerceTo _)
  · exact .error _

/-- A stroke that leaves an ordinary output does not remove what stands before it. -/
theorem Stroke.trims_of_ordinary
    (stroke : Stroke)
    (output : Output)
    (ordinary : ∀ piece ∈ (stroke.apply output).pieces, piece.Ordinary) :
    stroke.trims = false := by
  cases stroke with
  | glue =>
      exact (ordinary .glue (by simp [Stroke.apply, Output.appendGlue, Output.push])).elim
  | functionEnd =>
      exact
        (ordinary .functionEnd
          (by simp [Stroke.apply, Output.appendFunctionEnd, Output.push])).elim
  | _ =>
      rfl

namespace Play

variable {σ τ : Type} {view : Audience σ → τ} {quiet : CallbackId → Prop} {host : Host σ}
  {setup : Setup}

/-- A play that has only ordinary texts to write and to read. -/
structure Ordinary (play : Play σ) : Prop where
  flow : play.flow.Ordinary
  globals : ∀ value ∈ play.world.store.values, value.Ordinary

namespace Ordinary

variable {play : Play σ}

theorem assign
    (impartial : host.Impartial setup view quiet)
    (observed : play.world.ObservedBy quiet)
    (ordinary : play.Ordinary)
    (name : String)
    {value : Value}
    (valueOrdinary : value.Ordinary) :
    (play.assign host name value).2.Ordinary := by
  obtain ⟨world, flow⟩ := play.assign_world host name value
  refine ⟨flow ▸ ordinary.flow, ?_⟩
  rw [world]
  cases prepared : play.world.store.prepare name value with
  | error error =>
      rw [World.assign_of_refused prepared]
      exact ordinary.globals
  | ok write =>
      have written := impartial.silent.carryOut observed write
      intro other inside
      rw [World.assign_of_prepared prepared, written.values] at inside
      rcases List.mem_or_eq_of_mem_set inside with old | rfl
      · exact ordinary.globals other old
      · exact Store.prepare_ordinary _ name valueOrdinary write prepared

/-- A step of an ordinary story leads to an ordinary play, whether it succeeds or not. -/
theorem step
    (impartial : host.Impartial setup view quiet)
    (story : setup.story.Ordinary)
    (observed : play.world.ObservedBy quiet)
    (ordinary : play.Ordinary)
    (address : Nat) :
    (play.step setup host address).2.Ordinary := by
  have changes : Yields Change.Ordinary (play.flow.next setup play.world.store address) := by
    simp only [Flow.next]
    split
    · exact .ok (ordinary.flow.done setup.story)
    · next instruction here =>
        exact Flow.execute_ordinary story ordinary.globals here { ordinary.flow with }
  rw [step_eq]
  split
  · exact ⟨{ ordinary.flow with }, ordinary.globals⟩
  · next change made =>
      have changed := changes change made
      have carried : (play.carry setup change).Ordinary := ⟨changed.flow, ordinary.globals⟩
      cases asked : change.request with
      | none =>
          exact carried
      | some request =>
          cases request with
          | write name value =>
              have carriedObserved : (play.carry setup change).world.ObservedBy quiet :=
                observed
              exact
                carried.assign impartial carriedObserved name (changed.write name value asked)
          | call name binding arguments =>
              obtain ⟨flag, payload, here, bound⟩ := Flow.next_call made asked
              exact absurd ⟨address, flag, payload, here, bound⟩ (story.uncalled binding)

theorem select
    (ordinary : play.Ordinary)
    {choice : Choice}
    (calls : choice.callStack.Ordinary) :
    (play.select setup choice).Ordinary :=
  ⟨ordinary.flow.select setup.story calls, ordinary.globals⟩

theorem advance
    (impartial : host.Impartial setup view quiet)
    (story : setup.story.Ordinary)
    (observed : play.world.ObservedBy quiet)
    (ordinary : play.Ordinary)
    {result : Except Error Unit}
    {next : Play σ}
    (moved : play.plainAdvance? setup host = some (result, next)) :
    next.Ordinary := by
  cases here : play.flow.ip with
  | some address =>
      rw [plainAdvance?_of_ip here, Option.some.injEq] at moved
      have after := ordinary.step impartial story observed address
      rwa [moved] at after
  | none =>
      simp only [plainAdvance?_of_stopped here, takeFallback?, Option.map_map,
        Option.map_eq_some_iff] at moved
      obtain ⟨choice, taken, continued⟩ := moved
      cases continued
      have offered : play.flow.fallback = some choice := by
        simp only [Flow.fallback?] at taken
        split at taken
        · cases taken
        · exact taken
      have reported : (play.emit setup [.fallbackChosen choice.target]).Ordinary :=
        ⟨ordinary.flow, ordinary.globals⟩
      exact reported.select (ordinary.flow.fallback choice offered)

end Ordinary

/-! ## Beside output that is kept -/

/-- A play from whose output the lines in front have been taken, beside one that keeps them. -/
structure Alongside
    (view : Audience σ → τ)
    (quiet : CallbackId → Prop)
    (front : List Piece)
    (play uncut : Play σ) :
    Prop where
  abreast : Abreast view quiet play uncut
  fallback : play.flow.fallback = uncut.flow.fallback
  pieces : uncut.flow.output.pieces = front ++ play.flow.output.pieces
  ordinary : uncut.Ordinary

namespace Alongside

variable {front : List Piece} {play uncut : Play σ}

/-- An advance on both sides draws the same behind the lines in front. -/
theorem moved
    (discreet : host.Discreet setup view quiet)
    (story : setup.story.Ordinary)
    (settled : Settled front)
    (alongside : Alongside view quiet front play uncut)
    {result : Except Error Unit}
    {next other : Play σ}
    (moved : uncut.plainAdvance? setup host = some (result, other))
    (abreast : Abreast view quiet next other)
    (parallel : Flow.Parallel play.flow uncut.flow next.flow other.flow) :
    Alongside view quiet front next other := by
  have ordinary :=
    alongside.ordinary.advance discreet.impartial story
      alongside.abreast.world.rightObserved moved
  obtain ⟨stroke, drawn, otherDrawn, _⟩ := parallel.stroke
  refine ⟨abreast, parallel.fallback alongside.fallback, ?_, ordinary⟩
  have whole : uncut.flow.output = ⟨front ++ play.flow.output.pieces⟩ := by
    rw [← alongside.pieces]
  have keeps : stroke.trims = false :=
    stroke.trims_of_ordinary uncut.flow.output (otherDrawn ▸ ordinary.flow.output)
  rw [otherDrawn, drawn, whole]
  rcases settled.ended with rfl | ended
  · rfl
  · exact stroke.apply_append settled.plain (.inr ⟨ended, keeps⟩)

theorem advance
    (discreet : host.Discreet setup view quiet)
    (story : setup.story.Ordinary)
    (settled : Settled front)
    (alongside : Alongside view quiet front play uncut)
    {next : Play σ}
    (moved : play.plainAdvance? setup host = some (.ok (), next)) :
    ∃ other,
      uncut.plainAdvance? setup host = some (.ok (), other) ∧
        Alongside view quiet front next other := by
  obtain ⟨other, otherMoved, abreast, parallel⟩ := alongside.abreast.advance discreet moved
  exact
    ⟨other, otherMoved, alongside.moved discreet story settled otherMoved abreast parallel⟩

theorem failed
    (discreet : host.Discreet setup view quiet)
    (story : setup.story.Ordinary)
    (settled : Settled front)
    (alongside : Alongside view quiet front play uncut)
    {error : Error}
    {last : Play σ}
    (failure : play.plainAdvance? setup host = some (.error error, last)) :
    ∃ other,
      uncut.plainAdvance? setup host = some (.error error, other) ∧
        Alongside view quiet front last other := by
  obtain ⟨other, otherFailed, abreast, parallel⟩ := alongside.abreast.advance discreet failure
  exact
    ⟨other, otherFailed, alongside.moved discreet story settled otherFailed abreast parallel⟩

/-- A plain run is followed by one that keeps its output. -/
theorem run
    (discreet : host.Discreet setup view quiet)
    (story : setup.story.Ordinary)
    (settled : Settled front)
    (alongside : Alongside view quiet front play uncut)
    {count : Nat}
    {last : Play σ}
    (run : PlainRun setup host count play last) :
    ∃ other,
      PlainRun setup host count uncut other ∧ Alongside view quiet front last other := by
  induction run with
  | refl =>
      exact ⟨uncut, .refl uncut, alongside⟩
  | advance _ moved inductionHypothesis =>
      obtain ⟨middle, run, alongside⟩ := inductionHypothesis alongside
      obtain ⟨other, otherMoved, alongside⟩ := alongside.advance discreet story settled moved
      exact ⟨other, .advance run otherMoved, alongside⟩

/-- What is ordinary beside a reader is so in the reader. -/
theorem ordinary_left
    (alongside : Alongside view quiet front play uncut) :
    play.Ordinary := by
  have still := Flow.Still.start alongside.abreast.flow
  have ordinary := alongside.ordinary.flow
  have eval : play.flow.eval = uncut.flow.eval := still.reads Flow.eval fun _ => rfl
  have callStack : play.flow.callStack = uncut.flow.callStack :=
    still.reads Flow.callStack fun _ => rfl
  have threads : play.flow.threads = uncut.flow.threads :=
    still.reads Flow.threads fun _ => rfl
  have choices : play.flow.choices = uncut.flow.choices :=
    still.reads Flow.choices fun _ => rfl
  refine
    ⟨{ eval := eval ▸ ordinary.eval
       callStack := callStack ▸ ordinary.callStack
       threads := threads ▸ ordinary.threads
       choices := choices ▸ ordinary.choices
       fallback := alongside.fallback ▸ ordinary.fallback
       output := fun piece inside => ordinary.output piece ?_ }, ?_⟩
  · rw [alongside.pieces]
    exact List.mem_append_right front inside
  · rw [alongside.abreast.world.values]
    exact alongside.ordinary.globals

theorem symm
    (alongside : Alongside view quiet [] play uncut) :
    Alongside view quiet [] uncut play :=
  ⟨alongside.abreast.symm, alongside.fallback.symm, alongside.pieces.symm,
    alongside.ordinary_left⟩

theorem trans
    {other : Play σ}
    (alongside : Alongside view quiet front play uncut)
    (further : Alongside view quiet [] uncut other) :
    Alongside view quiet front play other :=
  ⟨alongside.abreast.trans further.abreast, alongside.fallback.trans further.fallback,
    further.pieces.trans alongside.pieces, further.ordinary⟩

/-- Two readers in the middle of the same line are alongside each other. -/
theorem of_unended
    {other : Play σ}
    {otherFront : List Piece}
    (settled : Settled front)
    (otherSettled : Settled otherFront)
    (alongside : Alongside view quiet front play uncut)
    (otherAlongside : Alongside view quiet otherFront other uncut)
    (unended : .newline ∉ play.flow.output.outer)
    (otherUnended : .newline ∉ other.flow.output.outer) :
    Alongside view quiet [] play other where
  abreast := alongside.abreast.trans otherAlongside.abreast.symm
  fallback := alongside.fallback.trans otherAlongside.fallback.symm
  pieces :=
    otherSettled.tail_unique settled (otherAlongside.pieces.symm.trans alongside.pieces)
      otherUnended unended
  ordinary := otherAlongside.ordinary_left

theorem of_follows
    (follows : Follows view quiet play uncut)
    (ordinary : uncut.Ordinary) :
    Alongside view quiet [] play uncut :=
  ⟨⟨by rw [follows.flow], follows.world⟩, by rw [follows.flow], by rw [follows.flow]; rfl,
    ordinary⟩

/-- The tags of the line do not matter. -/
theorem clearLine
    (alongside : Alongside view quiet front play uncut) :
    Alongside view quiet front play.clearLine uncut :=
  ⟨(clearLine_abreast alongside.abreast.world.leftObserved).trans alongside.abreast,
    alongside.fallback, alongside.pieces, alongside.ordinary⟩

/-- A line end in front of a reader is one more line that was taken. -/
theorem taken
    {base rest : Play σ}
    {body : List Piece}
    (ends : EndsLine base.flow.output.pieces body)
    (flow : rest.flow = { base.flow with output := .empty })
    (world : World.Alike view quiet rest.world base.world)
    (alongside : Alongside view quiet front base uncut) :
    Alongside view quiet (front ++ base.flow.output.pieces) rest uncut where
  abreast := (ends.abreast flow world).trans alongside.abreast
  fallback := by
    rw [flow]
    exact alongside.fallback
  pieces := by
    rw [flow, alongside.pieces]
    exact (List.append_nil _).symm
  ordinary := alongside.ordinary

/-- Once everything has been taken, it does not matter in how many lines. -/
theorem emptied
    {base rest : Play σ}
    (flow : rest.flow = { base.flow with output := .empty })
    (world : World.Alike view quiet rest.world base.world)
    (alongside : Alongside view quiet front base uncut) :
    Alongside view quiet [] rest uncut.cleared where
  abreast := by
    refine ⟨?_, world.trans alongside.abreast.world⟩
    have same := congrArg (fun flow : Flow => { flow with output := .empty })
      alongside.abreast.flow
    rw [flow]
    exact same
  fallback := by
    rw [flow]
    exact alongside.fallback
  pieces := by
    rw [flow]
    rfl
  ordinary :=
    ⟨{ alongside.ordinary.flow with output := fun _ absent => nomatch absent },
      alongside.ordinary.globals⟩

end Alongside

/-! ## What is read -/

/-- A runner between two calls: its output is taken, and it has not stopped for a moment only. -/
structure Rested
    (setup : Setup)
    (host : Host σ)
    (play : Play σ) :
    Prop where
  fresh : play.flow.output = .empty
  final : play.flow.ip = none → play.plainAdvance? setup host = none

/-- How a reading ends when the run that keeps its output ends at a play. -/
inductive ReadsTo
    (setup : Setup)
    (host : Host σ)
    (view : Audience σ → τ)
    (quiet : CallbackId → Prop)
    (far : Play σ) :
    Except Error String → Play σ → Prop where
  /-- The story has stopped, and all that was kept is read. -/
  | stopped
      {after : Play σ}
      (stopped : far.plainAdvance? setup host = none)
      (usable : after.failure = none)
      (taken : Alongside view quiet [] after far.cleared) :
      ReadsTo setup host view quiet far (.ok (render far.flow.output.pieces)) after
  /-- The story has failed in the middle of a line. -/
  | failed
      {after middle last : Play σ}
      {front : List Piece}
      {error : Error}
      (settled : Settled front)
      (alongside : Alongside view quiet front middle far)
      (unended : .newline ∉ middle.flow.output.outer)
      (moved : middle.plainAdvance? setup host = some (.error error, last))
      (failure : after.failure = some error)
      (follows : Follows view quiet after last) :
      ReadsTo setup host view quiet far (.error error) after

/-- A story that has stopped stays stopped when its output is taken. -/
theorem stopped_cleared
    {play : Play σ}
    (stopped : play.plainAdvance? setup host = none) :
    play.cleared.plainAdvance? setup host = none := by
  have ip : play.flow.ip = none := ip_of_stopped stopped
  have clearedIp : play.cleared.flow.ip = none := ip
  rw [plainAdvance?_of_stopped ip, Option.map_eq_none_iff, takeFallback?,
    Option.map_eq_none_iff] at stopped
  have offered : play.cleared.flow.fallback? = none := stopped
  rw [plainAdvance?_of_stopped clearedIp, takeFallback?, offered]
  rfl

/-- A reading that ends without a failure leaves the reader ready for the next call. -/
theorem ReadsTo.rested
    {far after : Play σ}
    {result : Except Error String}
    (reads : ReadsTo setup host view quiet far result after)
    (usable : after.failure = none) :
    after.Rested setup host := by
  cases reads with
  | stopped stopped _ taken =>
      refine ⟨congrArg Output.mk taken.pieces.symm, fun _ => ?_⟩
      exact taken.symm.abreast.stopped (stopped_cleared stopped)
  | failed _ _ _ _ failure =>
      rw [failure] at usable
      cases usable

/--
A line that is read is one more line of the output that is kept.  Either the story has
stopped behind it, or the reader goes on from there.
-/
theorem getline_alongside
    (discreet : host.Discreet setup view quiet)
    (story : setup.story.Ordinary)
    {fuel : Nat}
    {front : List Piece}
    {play uncut rest : Play σ}
    {line : String}
    (settled : Settled front)
    (alongside : Alongside view quiet front play uncut)
    (fresh : play.flow.output = .empty)
    (read : play.getline setup host fuel = (.ok line, rest)) :
    ∃ count kept,
      PlainRun setup host count uncut kept ∧
        render front ++ line = render kept.flow.output.pieces ∧
        ((kept.plainAdvance? setup host = none ∧
            rest.flow.ip = none ∧
            Alongside view quiet [] rest kept.cleared) ∨
          (Settled kept.flow.output.pieces ∧
            Alongside view quiet kept.flow.output.pieces rest kept ∧
            rest.Rested setup host)) := by
  have observed := alongside.abreast.world.leftObserved
  have clearedObserved : play.clearLine.world.ObservedBy quiet := observed
  have clearedFresh : play.clearLine.flow.output = .empty := fresh
  obtain ⟨base, lineEnd, rendered, flow, world⟩ := getline_arrived discreet observed read
  obtain ⟨before, run⟩ := lineEnd.plainRun (canContinue_of_getline read).2
  obtain ⟨kept, keptRun, beside⟩ := alongside.clearLine.run discreet story settled run
  refine ⟨_, kept, keptRun, ?_, ?_⟩
  · have ordinary := beside.ordinary.flow.output
    rw [beside.pieces] at ordinary ⊢
    rw [settled.render_append ordinary, ← rendered]
    rfl
  · rcases lineEnd.stopped_or_endsLine discreet clearedObserved clearedFresh with
      stopped | ⟨onward, body, ends⟩
    · refine .inl ⟨beside.abreast.stopped stopped, ?_, beside.emptied flow world⟩
      rw [flow]
      exact ip_of_stopped stopped
    · refine .inr ⟨?_, ?_, by rw [flow], fun none => ?_⟩
      · rw [beside.pieces]
        exact settled.append ends
      · rw [beside.pieces]
        exact beside.taken ends flow world
      · rw [flow] at none
        rw [show base.flow.ip = .none from none] at onward
        cases onward

/-- A reading that fails in a line fails where the run that keeps its output does. -/
theorem getline_fails
    (discreet : host.Discreet setup view quiet)
    (story : setup.story.Ordinary)
    {fuel : Nat}
    {front : List Piece}
    {play uncut after : Play σ}
    {error : Error}
    (settled : Settled front)
    (alongside : Alongside view quiet front play uncut)
    (fresh : play.flow.output = .empty)
    (continues : play.canContinue = true)
    (read : play.getline setup host fuel = (.error error, after))
    (genuine : error ≠ .outOfSteps) :
    ∃ count far,
      Finish setup host count uncut far ∧
        ReadsTo setup host view quiet far (.error error) after := by
  obtain ⟨usable, onward⟩ := canContinue_iff.mp continues
  have observed := alongside.abreast.world.leftObserved
  have clearedObserved : play.clearLine.world.ObservedBy quiet := observed
  have clearedFresh : play.clearLine.flow.output = .empty := fresh
  obtain ⟨failure, middle, last, reading, moved, follows⟩ :=
    getline_failed discreet observed usable onward read genuine
  obtain ⟨⟨count, run⟩, _⟩ := reading.plainRun
  obtain ⟨_, unended⟩ := reading.shape discreet clearedObserved clearedFresh
  obtain ⟨far, farRun, beside⟩ := alongside.clearLine.run discreet story settled run
  obtain ⟨_, farFailed, _⟩ := beside.failed discreet story settled moved
  exact
    ⟨count, far, .of_failed farRun farFailed genuine,
      .failed settled beside unended moved failure follows⟩

/-- A runner that cannot go on has nothing to read. -/
theorem getLines_of_not_canContinue
    {play after : Play σ}
    (idle : play.canContinue = false)
    {fuel lines : Nat}
    {text : String}
    {result : Except Error String}
    (read : getLines setup host fuel lines text play = (result, after))
    (finished : result ≠ .error .outOfSteps) :
    result = .ok text ∧ after = play := by
  cases lines with
  | zero =>
      cases read
      exact absurd rfl finished
  | succ lines =>
      simp only [getLines, idle, Bool.false_eq_true, if_false, Prod.mk.injEq] at read
      exact ⟨read.1.symm, read.2.symm⟩

/--
What is read up to the next choice or the end is what the run that keeps its output ends
with, and the reader is where that run is.
-/
theorem getLines_readsTo
    (discreet : host.Discreet setup view quiet)
    (story : setup.story.Ordinary)
    {fuel lines : Nat}
    {front : List Piece}
    {play uncut after : Play σ}
    {result : Except Error String}
    (settled : Settled front)
    (alongside : Alongside view quiet front play uncut)
    (usable : play.failure = none)
    (rested : play.Rested setup host)
    (read : getLines setup host fuel lines (render front) play = (result, after))
    (finished : result ≠ .error .outOfSteps) :
    ∃ count far,
      Finish setup host count uncut far ∧
        ReadsTo setup host view quiet far result after := by
  induction lines generalizing front play uncut with
  | zero =>
      cases read
      exact absurd rfl finished
  | succ lines inductionHypothesis =>
      cases continues : play.canContinue with
      | false =>
          obtain ⟨rfl, rfl⟩ := getLines_of_not_canContinue continues read finished
          have ip : after.flow.ip = none := by
            simpa [Runner.canContinue, usable] using continues
          have stopped := alongside.abreast.stopped (rested.final ip)
          have kept : uncut.flow.output.pieces = front := by
            rw [alongside.pieces, rested.fresh]
            exact List.append_nil front
          refine ⟨0, uncut, .of_stopped (.refl uncut) stopped, kept ▸ ?_⟩
          refine .stopped stopped usable
            (alongside.emptied ?_ (.refl alongside.abreast.world.leftObserved))
          rw [← rested.fresh]
      | true =>
          rcases got : play.getline setup host fuel with ⟨outcome, rest⟩
          simp only [getLines, continues, if_true, got] at read
          cases outcome with
          | error error =>
              obtain ⟨rfl, rfl⟩ := Prod.mk.inj read
              exact
                getline_fails discreet story settled alongside rested.fresh continues got
                  fun same => finished (by rw [same])
          | ok line =>
              obtain ⟨_, kept, run, text, ⟨stopped, ip, emptied⟩ | ⟨settled, beside, rested⟩⟩ :=
                getline_alongside discreet story settled alongside rested.fresh got
              · have idle : rest.canContinue = false := by
                  simp [Runner.canContinue, ip]
                obtain ⟨rfl, rfl⟩ := getLines_of_not_canContinue idle read finished
                exact
                  ⟨_, kept, .of_stopped run stopped,
                    text ▸ .stopped stopped (getline_failure got) emptied⟩
              · simp only [text] at read
                obtain ⟨_, far, finish, readsTo⟩ :=
                  inductionHypothesis settled beside (getline_failure got) rested read
                exact ⟨_, far, ⟨run.trans finish.run, finish.halted, finish.genuine⟩, readsTo⟩

end Play

end Fabula
