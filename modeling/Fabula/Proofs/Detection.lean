import Fabula.Proofs.Drawing
import Fabula.Proofs.Lines

namespace Fabula

/-!
# Detection

On trial only one position of the output is looked at, to see whether the line end there has
been removed.  That is enough, because output grows and shrinks at its end only: as long as
no stroke has reached the line end, all pieces up to it are those of the checkpoint and the
markers stand behind it.  A stroke that does reach it is glue or the end of a function behind
nothing but blanks.  It leaves no line end and no marker, so it is noticed at once, and no
line end can take the place of the removed one before that.
-/

namespace Output

/-- Output in which an unfinished text is closed is the start of what it was. -/
theorem closeMarker?_prefix
    {output rest : Output}
    {marker : Piece}
    {text : String}
    (closed : output.closeMarker? marker = some (text, rest)) :
    rest.pieces <+: output.pieces := by
  simp only [closeMarker?, Option.map_eq_some_iff, Prod.mk.injEq] at closed
  obtain ⟨parts, found, _, rfl⟩ := closed
  exact prefix_of_splitLast? found

end Output

namespace Stroke

/-- How many pieces of output a stroke leaves where they are; it takes away all others. -/
def spares : Stroke → Output → Nat
  | .glue, output | .functionEnd, output => output.trimBlanks.size
  | .close marker, output =>
      match output.closeMarker? marker.val with
      | some (_, rest) => rest.size
      | none => output.size
  | _, output => output.size

/-- What a stroke adds stands behind the pieces that it spares, and is one piece at most. -/
theorem apply_spares
    (stroke : Stroke)
    (output : Output) :
    ∃ added,
      added.length ≤ 1 ∧
        (stroke.apply output).pieces = output.pieces.take (stroke.spares output) ++ added := by
  have whole : output.pieces = output.pieces.take output.size := List.take_length.symm
  have trimmed : output.trimBlanks.pieces = output.pieces.take output.trimBlanks.size :=
    List.prefix_iff_eq_take.mp output.trimBlanks_prefix
  cases stroke with
  | still =>
      exact ⟨[], by simp, by simp [apply, spares, Output.size]⟩
  | text s =>
      simp only [apply, spares, Output.appendText, ← whole]
      split
      · exact ⟨[], by simp, by simp⟩
      · exact ⟨[.text s], by simp, rfl⟩
  | newline =>
      simp only [apply, spares, ← whole]
      rcases output.appendNewline_eq with same | pushed
      · exact ⟨[], by simp, by simp [same]⟩
      · exact ⟨[.newline], by simp, by rw [pushed]; rfl⟩
  | glue =>
      exact ⟨[.glue], by simp, by simp only [apply, spares, ← trimmed]; rfl⟩
  | functionEnd =>
      exact ⟨[.functionEnd], by simp, by simp only [apply, spares, ← trimmed]; rfl⟩
  | functionStart =>
      exact ⟨[.functionStart], by simp, by simp only [apply, spares, ← whole]; rfl⟩
  | mark marker =>
      exact ⟨[marker.val], by simp, by simp only [apply, spares, ← whole]; rfl⟩
  | close marker =>
      simp only [apply, spares]
      cases closed : output.closeMarker? marker.val with
      | none =>
          exact ⟨[], by simp, by simp [Output.size]⟩
      | some parts =>
          have front := List.prefix_iff_eq_take.mp (Output.closeMarker?_prefix closed)
          exact ⟨[], by simp, by rw [List.append_nil]; exact front⟩

variable {body rest : List Piece}

/-- Pieces that are spared stay at the start of the output. -/
theorem prefix_apply
    (stroke : Stroke)
    {front : List Piece}
    (spared : front.length ≤ stroke.spares ⟨front ++ rest⟩) :
    front <+: (stroke.apply ⟨front ++ rest⟩).pieces := by
  obtain ⟨added, _, applied⟩ := stroke.apply_spares ⟨front ++ rest⟩
  rw [applied, List.take_append, List.take_of_length_le spared, List.append_assoc]
  exact List.prefix_append ..

/-- Blanks are removed down to a line end and further, unless something else stands behind it. -/
theorem size_trimBlanks_lt_iff
    (body rest : List Piece) :
    (Output.trimBlanks ⟨body ++ [.newline] ++ rest⟩).size < body.length + 1 ↔
      rest.all Piece.isBlank = true := by
  cases blank : rest.all Piece.isBlank with
  | true =>
      have shorter := (Output.trimBlanks_prefix ⟨body⟩).length_le
      have removed :
          Output.trimBlanks ⟨body ++ [.newline] ++ rest⟩ = Output.trimBlanks ⟨body⟩ := by
        rw [Output.trimBlanks_of_blank _ blank, Output.trimBlanks_of_blank]
        rfl
      rw [removed, iff_true_right rfl]
      exact Nat.lt_succ_of_le shorter
  | false =>
      have solid : rest.any (fun piece => !piece.isBlank) = true := by
        simpa using blank
      rw [Output.size, Output.trimBlanks_append _ solid]
      simp

/--
A line end is removed by glue and the end of a function only, and by these if nothing but
blanks stands behind it.
-/
theorem spares_lt_iff
    (stroke : Stroke)
    (rest : List Piece)
    (plain : Output.Plain (body ++ [.newline])) :
    stroke.spares ⟨body ++ [.newline] ++ rest⟩ < body.length + 1 ↔
      stroke.trims = true ∧ rest.all Piece.isBlank = true := by
  have long : body.length + 1 ≤ Output.size ⟨body ++ [.newline] ++ rest⟩ := by
    simp [Output.size]
  cases stroke with
  | glue | functionEnd =>
      simpa only [spares, trims, true_and] using size_trimBlanks_lt_iff body rest
  | close marker =>
      simp only [spares, trims, Output.closeMarker?_append marker plain]
      cases Output.closeMarker? ⟨rest⟩ marker.val with
      | none =>
          simpa using long
      | some closed =>
          simp [Output.size]
  | _ =>
      simpa [spares, trims] using long

end Stroke

/-! ## The look at the output -/

namespace Flow

/-- Glue and the end of a function are no calls of the host. -/
theorem isUnsafeCall_of_trims
    {setup : Setup}
    {address : Nat}
    {flow : Flow}
    (trims : (flow.strokeAt setup address).trims = true) :
    setup.isUnsafeCall address = false := by
  simp only [Setup.isUnsafeCall]
  split
  · next flag payload here =>
      simp only [strokeAt, here, stroke] at trims
      split at trims <;> cases trims
  · rfl

end Flow

namespace Play

variable {σ : Type} {setup : Setup} {host : Host σ} {saved : Checkpoint}
  {entry play after : Play σ} {address : Nat} {body rest : List Piece}

/-- A line end that is still there is not reported as removed. -/
theorem growth_of_kept
    {output : Output}
    (kept : body ++ [.newline] <+: output.pieces) :
    growth (body.length + 1) output ≠ .newlineRemoved := by
  obtain ⟨behind, whole⟩ := kept
  have grown := growth_append body behind
  rw [whole] at grown
  rw [grown]
  split <;> simp

/-- A stroke that removes a line end leaves none in its place, nor a marker. -/
theorem look_of_removed
    {stroke : Stroke}
    (plain : Output.Plain (body ++ [.newline]))
    (trims : stroke.trims = true)
    (blank : rest.all Piece.isBlank = true) :
    growth (body.length + 1) (stroke.apply ⟨body ++ [.newline] ++ rest⟩) = .newlineRemoved ∧
      (stroke.apply ⟨body ++ [.newline] ++ rest⟩).hasMarker = false ∧
      (stroke.apply ⟨body ++ [.newline] ++ rest⟩).endsWithNewline = false := by
  obtain ⟨start, piece, before, other, unmarked, pieces⟩ := Stroke.apply_trims trims body blank
  have drawn : stroke.apply ⟨body ++ [.newline] ++ rest⟩ = ⟨start ++ [piece]⟩ := by
    rw [← pieces]
  have gone : Output.newlineAt ⟨start ++ [piece]⟩ body.length = false := by
    rw [Output.newlineAt, beq_eq_false_iff_ne]
    intro found
    rcases Nat.lt_or_eq_of_le before.length_le with shorter | same
    · rw [List.getElem?_eq_none (by simpa using Nat.succ_le_of_lt shorter)] at found
      cases found
    · rw [← same, List.getElem?_concat_length, Option.some.injEq] at found
      exact other found
  rw [drawn]
  refine ⟨by simp [growth, gone], ?_, by simpa [Output.endsWithNewline] using other⟩
  refine Output.hasMarker_eq_false_iff.mpr fun item inside => ?_
  rcases List.mem_append.mp inside with older | new
  · exact plain item (List.mem_append_left _ (before.mem older))
  · rwa [List.mem_singleton.mp new]

/-- Blanks are no markers. -/
theorem hasMarker_of_blank
    (plain : Output.Plain (body ++ [.newline]))
    (blank : rest.all Piece.isBlank = true) :
    Output.hasMarker ⟨body ++ [.newline] ++ rest⟩ = false := by
  refine Output.hasMarker_eq_false_iff.mpr fun item inside => ?_
  rcases List.mem_append.mp inside with older | new
  · exact plain item older
  · cases marked : item.isMarker with
    | false =>
        rfl
    | true =>
        have blank := List.all_eq_true.mp blank item new
        rw [Piece.isBlank_of_isMarker marked] at blank
        cases blank

/--
The output begins with the pieces of a checkpoint, the last of which is the line end, and
no marker is among them.
-/
structure Intact (saved : Checkpoint) (output : Output) : Prop where
  size : saved.outputSize = saved.flow.output.size
  ended : saved.flow.output.endsWithNewline = true
  plain : saved.flow.output.hasMarker = false
  kept : saved.flow.output.pieces <+: output.pieces

/-- What stands before the line end and behind it. -/
theorem Intact.split
    {output : Output}
    (intact : Intact saved output) :
    ∃ body rest,
      saved.outputSize = body.length + 1 ∧
        saved.flow.output.pieces = body ++ [.newline] ∧
        Output.Plain (body ++ [.newline]) ∧
        output = ⟨body ++ [.newline] ++ rest⟩ := by
  have ended := intact.ended
  rw [Output.endsWithNewline, beq_iff_eq, List.getLast?_eq_some_iff] at ended
  obtain ⟨body, pieces⟩ := ended
  obtain ⟨rest, whole⟩ := intact.kept
  have plain := Output.hasMarker_eq_false_iff.mp intact.plain
  rw [pieces] at whole plain
  refine ⟨body, rest, ?_, pieces, plain, ?_⟩
  · rw [intact.size, Output.size, pieces, List.length_append, List.length_singleton]
  · rw [whole]

/-- The stroke of the next move; a fallback that is taken draws nothing. -/
def nextStroke (setup : Setup) (play : Play σ) : Stroke :=
  match play.flow.ip with
  | none => .still
  | some address => play.flow.strokeAt setup address

/-- How many pieces of output the next move leaves where they are. -/
def spares (setup : Setup) (play : Play σ) : Nat :=
  (play.nextStroke setup).spares play.flow.output

/-- What the look at the output after a step on trial tells. -/
structure Detects
    (setup : Setup)
    (host : Host σ)
    (saved : Checkpoint)
    (play after : Play σ) :
    Prop where
  /-- The step draws the stroke of its instruction. -/
  drawn : after.flow.output = (play.nextStroke setup).apply play.flow.output
  /-- Behind the pieces that stay where they are, the step adds one at most. -/
  reach :
    ∃ added,
      added.length ≤ 1 ∧
        after.flow.output.pieces = play.flow.output.pieces.take (play.spares setup) ++ added
  /-- A removal is reported after the steps that take the line end away, and no others. -/
  exact :
    growth saved.outputSize after.flow.output = .newlineRemoved ↔
      play.spares setup < saved.outputSize
  /-- Only glue and the end of a function do so, if nothing but blanks stands behind it. -/
  cause :
    play.spares setup < saved.outputSize ↔
      (play.nextStroke setup).trims = true ∧
        (play.flow.output.pieces.drop saved.outputSize).all Piece.isBlank = true
  /-- No marker is open then, and the trial is over at once. -/
  noticed :
    play.spares setup < saved.outputSize →
      play.flow.output.hasMarker = false ∧
        after.flow.output.hasMarker = false ∧
        play.advance setup host (some saved) = .going none (after.commit host (some saved))
  /-- As long as the line end is not taken away, nothing changes up to it. -/
  intact : saved.outputSize ≤ play.spares setup → Intact saved after.flow.output

/-- A step on trial that takes the line end away decides the line. -/
theorem advance_of_removed
    (here : play.flow.ip = some address)
    (safeCall : setup.isUnsafeCall address = false)
    (stepped : play.step setup host address = (.ok (), after))
    (noMarker : after.flow.output.hasMarker = false)
    (grown : growth saved.outputSize after.flow.output = .newlineRemoved)
    (unended : after.flow.output.endsWithNewline = false) :
    play.advance setup host (some saved) = .going none (after.commit host (some saved)) := by
  simp [advance, here, safeCall, attempt, stepped, settle, noMarker, grown, proceed, commit,
    unended]

/-- The look at the output after a step is exact if the line end was there before it. -/
theorem Intact.detects
    (intact : Intact saved play.flow.output)
    (here : play.flow.ip = some address)
    (stepped : play.step setup host address = (.ok (), after)) :
    Detects setup host saved play after := by
  have next : play.nextStroke setup = play.flow.strokeAt setup address := by
    rw [nextStroke, here]
  have drawn : after.flow.output = (play.nextStroke setup).apply play.flow.output :=
    next ▸ output_step stepped
  obtain ⟨body, rest, size, pieces, plain, whole⟩ := intact.split
  have behind : play.flow.output.pieces.drop saved.outputSize = rest := by
    rw [whole, size]
    exact List.drop_left' (by simp)
  have reaches := Stroke.spares_lt_iff (play.nextStroke setup) rest plain
  rw [← whole, ← size] at reaches
  -- Either the line end is spared, and then it is seen, or it is gone from its place.
  have seen
      (spared : saved.outputSize ≤ play.spares setup) :
      body ++ [.newline] <+: after.flow.output.pieces := by
    rw [drawn, whole]
    refine Stroke.prefix_apply _ ?_
    rwa [← whole, List.length_append, List.length_singleton, ← size]
  have gone
      (removed : play.spares setup < saved.outputSize) :
      growth saved.outputSize after.flow.output = .newlineRemoved ∧
        after.flow.output.hasMarker = false ∧
        after.flow.output.endsWithNewline = false := by
    obtain ⟨trims, blank⟩ := reaches.mp removed
    rw [drawn, whole, size]
    exact look_of_removed plain trims blank
  refine ⟨drawn, ?_, ⟨fun grown => ?_, fun removed => (gone removed).1⟩, behind ▸ reaches, ?_, ?_⟩
  · rw [drawn]
    exact Stroke.apply_spares _ _
  · refine Nat.lt_of_not_le fun spared => ?_
    exact growth_of_kept (seen spared) (size ▸ grown)
  · intro removed
    obtain ⟨trims, blank⟩ := reaches.mp removed
    obtain ⟨grown, noMarker, unended⟩ := gone removed
    refine ⟨whole ▸ hasMarker_of_blank plain blank, noMarker, ?_⟩
    exact advance_of_removed here (Flow.isUnsafeCall_of_trims (next ▸ trims)) stepped noMarker
      grown unended
  · intro spared
    exact ⟨intact.size, intact.ended, intact.plain, pieces ▸ seen spared⟩

/-! ## Trials -/

/--
A checkpoint was opened on the way to the end of a line, and the moves since then were made
on trial.  The list says how many pieces each of them left where they were, the latest first.
-/
inductive Trial
    (setup : Setup)
    (host : Host σ)
    (entry : Play σ)
    (saved : Checkpoint) :
    List Nat → Play σ → Prop where
  | opened
      {before after : Play σ}
      (along : Along setup host none entry none before)
      (moved : before.advance setup host none = .going (some saved) after) :
      Trial setup host entry saved [] after
  | move
      {spared : List Nat}
      {before after : Play σ}
      (trial : Trial setup host entry saved spared before)
      (moved : before.advance setup host (some saved) = .going (some saved) after) :
      Trial setup host entry saved (before.spares setup :: spared) after

/-- The output begins as it did when the trial began, and no move was made that reached further. -/
structure Watched
    (setup : Setup)
    (host : Host σ)
    (entry : Play σ)
    (saved : Checkpoint)
    (play : Play σ) :
    Prop where
  intact : Intact saved play.flow.output
  untouched :
    ∃ spared,
      Trial setup host entry saved spared play ∧ ∀ count ∈ spared, saved.outputSize ≤ count

namespace Watched

/-- A move on trial that reaches no further than the line end. -/
theorem move
    (watched : Watched setup host entry saved play)
    (moved : play.advance setup host (some saved) = .going (some saved) after)
    (spared : saved.outputSize ≤ play.spares setup)
    (intact : Intact saved after.flow.output) :
    Watched setup host entry saved after := by
  obtain ⟨counts, trial, untouched⟩ := watched.untouched
  refine ⟨intact, play.spares setup :: counts, .move trial moved, fun count inside => ?_⟩
  rcases List.mem_cons.mp inside with rfl | older
  · exact spared
  · exact untouched count older

/-- A step on trial after which the line end is still seen. -/
theorem step
    (watched : Watched setup host entry saved play)
    (moved : play.advance setup host (some saved) = .going (some saved) after)
    (here : play.flow.ip = some address)
    (stepped : play.step setup host address = (.ok (), after)) :
    Watched setup host entry saved after := by
  have detects := watched.intact.detects here stepped
  have spared : saved.outputSize ≤ play.spares setup := by
    refine Nat.le_of_not_lt fun removed => ?_
    rw [(detects.noticed removed).2.2] at moved
    cases moved
  exact watched.move moved spared (detects.intact spared)

/-- A fallback draws nothing. -/
theorem fallback
    (watched : Watched setup host entry saved play)
    (moved : play.advance setup host (some saved) = .going (some saved) after)
    (stopped : play.flow.ip = none)
    (taken : play.takeFallback? setup = some after) :
    Watched setup host entry saved after := by
  have same : after.flow.output = play.flow.output := by
    simp only [takeFallback?, Option.map_eq_some_iff] at taken
    obtain ⟨choice, _, rfl⟩ := taken
    rfl
  refine watched.move moved ?_ (same ▸ watched.intact)
  rw [spares, nextStroke, stopped, watched.intact.size]
  exact watched.intact.kept.length_le

/-- When a checkpoint is opened, the line end is the last piece. -/
theorem proceed
    {opened : Play σ}
    (noMarker : after.flow.output.hasMarker = false)
    (proceeded : after.proceed setup = .going (some saved) opened) :
    Intact saved opened.flow.output := by
  have proceeding := proceed_proceeding setup after
  rw [proceeded] at proceeding
  cases proceeding with
  | onTrial ended _ _ =>
      exact ⟨rfl, ended, noMarker, List.prefix_rfl⟩

/-- Whatever was on trial before, a move that leaves a checkpoint open is watched. -/
theorem advance
    {checkpoint : Option Checkpoint}
    (along : Along setup host none entry checkpoint play)
    (watched : ∀ older, checkpoint = some older → Watched setup host entry older play)
    (moved : play.advance setup host checkpoint = .going (some saved) after) :
    Watched setup host entry saved after := by
  have move := advance_move setup host checkpoint play
  generalize reached : play.advance setup host checkpoint = progress at move
  rw [moved] at reached
  cases move with
  | fallback stopped taken =>
      cases reached
      exact (watched saved rfl).fallback moved stopped taken
  | marked here _ stepped | undecided here _ stepped =>
      cases reached
      exact (watched saved rfl).step moved here stepped
  | plain _ _ noMarker =>
      exact ⟨proceed noMarker reached.symm, [], .opened along moved, by simp⟩
  | joined here _ stepped noMarker grown =>
      -- The line end is gone, so no checkpoint is opened in its place.
      have detects := (watched _ rfl).intact.detects here stepped
      have decided := (detects.noticed (detects.exact.mp grown)).2.2
      rw [decided] at moved
      cases moved
  | finished | refused | failed | abandoned | completed =>
      cases reached

end Watched

/-- Whenever a checkpoint is open, its line end is watched. -/
theorem Along.watched
    {checkpoint : Option Checkpoint}
    (along : Along setup host none entry checkpoint play) :
    ∀ saved, checkpoint = some saved → Watched setup host entry saved play := by
  induction along with
  | here =>
      intro saved opened
      cases opened
  | move along moved inductionHypothesis =>
      rintro saved rfl
      exact .advance along inductionHypothesis moved

/--
While a line end is on trial, the output begins with the pieces of the checkpoint, any open
marker stands behind them, and no move since the trial began has taken one of them away.  The
next step is reported to have removed the line end exactly if it takes it away, which only
glue and the end of a function do, outside markers and behind nothing but blanks; the trial
is over at once then, and no other begins in its place.
-/
theorem removal_detected
    (along : Along setup host none entry (some saved) play) :
    saved.outputSize = saved.flow.output.size ∧
      saved.flow.output.endsWithNewline = true ∧
      play.flow.output.pieces.take saved.outputSize = saved.flow.output.pieces ∧
      (play.flow.output.pieces.take saved.outputSize).any Piece.isMarker = false ∧
      (∃ spared,
        Trial setup host entry saved spared play ∧
          ∀ count ∈ spared, saved.outputSize ≤ count) ∧
      ∀ address after,
        play.flow.ip = some address →
        play.step setup host address = (.ok (), after) →
        Detects setup host saved play after := by
  obtain ⟨intact, untouched⟩ := along.watched saved rfl
  have pieces : play.flow.output.pieces.take saved.outputSize = saved.flow.output.pieces := by
    rw [intact.size]
    exact (List.prefix_iff_eq_take.mp intact.kept).symm
  refine ⟨intact.size, intact.ended, pieces, ?_, untouched, ?_⟩
  · rw [pieces]
    exact intact.plain
  · intro address after here stepped
    exact intact.detects here stepped

/-! ## A bakery -/

/-- A story that tags its line behind the line end, and then glues on to it. -/
def bakerySetup : Setup where
  story :=
    { instructions :=
        #[⟨.str, 0, 0⟩, ⟨.newline, 0, 0⟩, ⟨.str, 0, 1⟩, ⟨.startTag, 0, 0⟩, ⟨.str, 0, 2⟩,
          ⟨.endTag, 0, 0⟩, ⟨.glue, 0, 0⟩, ⟨.str, 0, 3⟩, ⟨.newline, 0, 0⟩, ⟨.done, 0, 0⟩]
      strings := #["Bread", " ", "warm", " and butter"]
      literals := #[]
      containers := #[]
      declarations := ⟨[], ⟨#[]⟩⟩ }
  bindings := .empty
  config := .standard

theorem removal_detected_bakery :
    ∃ saved play after,
      Along bakerySetup idleHost none (starting bakerySetup bareWorld) (some saved) play ∧
        play.flow.ip = some 6 ∧
        play.flow.output.pieces = [.text "Bread", .newline, .text " "] ∧
        play.step bakerySetup idleHost 6 = (.ok (), after) ∧
        after.flow.output.pieces = [.text "Bread", .glue] ∧
        growth saved.outputSize after.flow.output = .newlineRemoved ∧
        play.advance bakerySetup idleHost (some saved) =
          .going none (after.commit idleHost (some saved)) := by
  obtain ⟨saved, play, after, along, here, pieces, stepped, size⟩ :
      ∃ saved play after,
        Along bakerySetup idleHost none (starting bakerySetup bareWorld) (some saved) play ∧
          play.flow.ip = some 6 ∧
          play.flow.output.pieces = [.text "Bread", .newline, .text " "] ∧
          play.step bakerySetup idleHost 6 = (.ok (), after) ∧
          saved.outputSize = 2 :=
    ⟨_, _, _,
      .move (.move (.move (.move (.move (.move .here rfl) rfl) rfl) rfl) rfl) rfl,
      rfl, by rfl, rfl, rfl⟩
  obtain ⟨_, _, _, _, _, tells⟩ := removal_detected along
  have detects := tells 6 after here stepped
  have glue : play.nextStroke bakerySetup = .glue := by
    rw [nextStroke, here]
    rfl
  have removed := detects.cause.mpr ⟨by rw [glue]; rfl, by rw [pieces, size]; decide⟩
  obtain ⟨_, _, decided⟩ := detects.noticed removed
  refine
    ⟨saved, play, after, along, here, pieces, stepped, ?_, detects.exact.mpr removed, decided⟩
  have output : play.flow.output = ⟨[.text "Bread", .newline, .text " "]⟩ :=
    congrArg Output.mk pieces
  rw [detects.drawn, glue, output]
  decide

end Play

end Fabula
