import AsmLexer.Proofs.Advance
import AsmLexer.Proofs.Scanner.Passes
import AsmLexer.Proofs.Scanner.Tokens
import Mathlib.Data.List.Chain
import Mathlib.Data.List.Nodup

/-!
# The course of a scanner

`Scanner.course` follows the machine pass by pass up to a token and writes down what happens on the
way: every state that is entered, every reading, every undoing, and every mishap that would stop a
machine that takes no chances. `Scanner.courseToEnd` goes on to the end of the source. Both come to
the tokens that the scanner hands out (`Scanner.result_course`, `Scanner.result_courseToEnd`).

A course is finite because every pass lowers `Scanner.measure`, over all states and tokens of a
source. For the same reason no state is entered twice at the same place
(`Scanner.nodup_dispatches_courseToEnd`).
-/

set_option autoImplicit false

namespace AsmLexer

/-- Why a machine that takes no chances would stop. -/
inductive Mishap where
  /-- There is no reading to undo. -/
  | nothingToUndo
  /-- The bytes to be shown in a message are not well-formed. -/
  | undecodable
deriving DecidableEq

/-- A state that is entered at a place. -/
structure Dispatch where
  phase : Phase
  offset : Int
deriving DecidableEq

/-- What happens while a scanner runs. -/
inductive Event where
  | dispatch (dispatch : Dispatch)
  | read
  | undo
  | mishap (mishap : Mishap)
deriving DecidableEq

/-- What happens up to some result. -/
structure Course (α : Type) where
  events : List Event
  result : α

/-- The same course after some events. -/
def Course.after {α : Type} (events : List Event) (c : Course α) : Course α :=
  ⟨events ++ c.events, c.result⟩

namespace Scanner

/-- Undoing needs a reading to undo. -/
def undoEvent (sc : Scanner) : Event :=
  if sc.checkpoint.isSome then .undo else .mishap .nothingToUndo

/-- The message about a short value without digits shows its bytes, which have to be well-formed. -/
def verdictEvents (sc : Scanner) : Verdict → List Event
  | .immediate base =>
    if base = 8 ∨ base = 10 ∨ 2 < sc.raw.length ∨ (Utf8.decode? sc.raw).isSome then []
    else [.mishap .undecodable]
  | _ => []

/-- What happens when a ruling is carried out on a scanner that has just made a reading. -/
def rulingEvents (sc : Scanner) (ruling : Ruling) : List Event :=
  (if ruling.putsBack then [sc.undoEvent] else []) ++
    (sc.ruled ruling).verdictEvents ruling.verdict

/-- What happens in one pass. -/
def passEvents (sc : Scanner) (state : State) : List Event :=
  let (symbol, sc) := sc.read
  .read :: sc.rulingEvents (state.ruling symbol)

/-- A pass is a reading and what its ruling makes of it. -/
theorem passEvents_eq (sc : Scanner) (state : State) :
    sc.passEvents state = .read :: sc.read.2.rulingEvents (state.ruling sc.read.1) := rfl

/-- The state is entered where the scanner reads next. -/
def dispatch (sc : Scanner) (state : State) : Dispatch :=
  ⟨state.phase, sc.next.pos.offset⟩

/-- The course of a scanner in a state, up to the next token. -/
def course (state : State) (sc : Scanner) : Course (Token × Scanner) :=
  match _h : sc.pass state with
  | .again sc' => (course state sc').after (sc.passEvents state)
  | .ends (.goto state' sc') =>
    (course state' sc').after (sc.passEvents state ++ [.dispatch (sc'.dispatch state')])
  | .ends (.emit token sc') => ⟨sc.passEvents state, (token, sc')⟩
termination_by sc.measure state
decreasing_by
  · exact Progress.measure_lt (.inl (advances_of_again _h))
  · exact (progress_of_goto _h).measure_lt

/-- The course of a scanner that is asked for its next token. -/
def pullCourse (sc : Scanner) : Course (Token × Scanner) :=
  (course sc.resume sc).after [.dispatch (sc.dispatch sc.resume)]

/-! ## Courses come to the tokens -/

/-- Scanners with the same step have the same run. -/
theorem run_congr {state : State} {sc sc' : Scanner} (h : step state sc = step state sc') :
    run state sc = run state sc' := by
  cases hstep : step state sc' with
  | emit token last => rw [run_of_emit hstep, run_of_emit (h.trans hstep)]
  | goto state' last => rw [run_of_goto hstep, run_of_goto (h.trans hstep)]

/-- The course of a state comes to the token of its run. -/
theorem result_course (state : State) (sc : Scanner) : (course state sc).result = run state sc := by
  fun_induction course state sc with
  | case1 state sc sc' hpass ih =>
    rw [run_congr (step_of_again hpass)]
    exact ih
  | case2 state sc state' sc' hpass ih =>
    rw [run_of_goto (step_of_ends hpass)]
    exact ih
  | case3 state sc token sc' hpass => exact (run_of_emit (step_of_ends hpass)).symm

/-- The course of a scanner comes to the token that it is asked for. -/
theorem result_pullCourse (sc : Scanner) : sc.pullCourse.result = sc.pull :=
  result_course sc.resume sc

/-- The course of a scanner up to the end of its source. -/
def courseToEnd (sc : Scanner) : Course (List Token) :=
  match _h : sc.pullCourse with
  | ⟨events, token, sc'⟩ =>
    if _hkind : token.kind = .endOfFile then ⟨events, [token]⟩
    else ⟨events ++ sc'.courseToEnd.events, token :: sc'.courseToEnd.result⟩
termination_by sc.remaining
decreasing_by
  all_goals have hpull := result_pullCourse sc
  all_goals rw [_h] at hpull
  all_goals have hlt := @remaining_pull_lt sc
  all_goals rw [← hpull] at hlt
  all_goals exact hlt _hkind

/-- The course to the end is that of one token and then of the others. -/
theorem courseToEnd_eq (sc : Scanner) :
    sc.courseToEnd =
      if sc.pull.1.kind = .endOfFile then ⟨sc.pullCourse.events, [sc.pull.1]⟩
      else ⟨sc.pullCourse.events ++ sc.pull.2.courseToEnd.events,
        sc.pull.1 :: sc.pull.2.courseToEnd.result⟩ := by
  rw [courseToEnd]
  split
  rename_i events token sc' hcourse
  have hpull := result_pullCourse sc
  rw [hcourse] at hpull
  rw [← hpull, hcourse]
  split <;> rfl

/-- The course to the end comes to all tokens. -/
theorem result_courseToEnd (sc : Scanner) : sc.courseToEnd.result = sc.drain.1 := by
  rw [courseToEnd_eq, drain_eq]
  split
  · rfl
  · exact congrArg _ (result_courseToEnd sc.pull.2)
termination_by sc.remaining
decreasing_by exact remaining_pull_lt ‹_›

end Scanner

/-! ## No state is entered twice at a place -/

/-- Further on in the source, or else of lower weight. -/
def Dispatch.Before (d e : Dispatch) : Prop :=
  d.offset < e.offset ∨ d.offset = e.offset ∧ e.phase.weight < d.phase.weight

instance : Trans Dispatch.Before Dispatch.Before Dispatch.Before where
  trans := by
    intro d e f hde hef
    unfold Dispatch.Before at *
    omega

instance : Std.Irrefl Dispatch.Before where
  irrefl := by
    intro d hd
    unfold Dispatch.Before at hd
    omega

/-- The dispatches among some events. -/
def dispatches (events : List Event) : List Dispatch :=
  events.filterMap fun
    | .dispatch d => some d
    | _ => none

/-- The dispatches of events in a row are those of both parts in a row. -/
theorem dispatches_append (events more : List Event) :
    dispatches (events ++ more) = dispatches events ++ dispatches more :=
  List.filterMap_append

namespace Scanner

/-- Behind its reading a pass only undoes it or meets a mishap. -/
theorem mem_rulingEvents {sc : Scanner} {ruling : Ruling} {e : Event}
    (h : e ∈ sc.rulingEvents ruling) : e = .undo ∨ ∃ m, e = .mishap m := by
  rcases List.mem_append.mp h with h | h
  · split at h
    · rw [List.mem_singleton] at h
      subst h
      unfold undoEvent
      split
      · exact .inl rfl
      · exact .inr ⟨_, rfl⟩
    · cases h
  · unfold verdictEvents at h
    split at h
    · split at h
      · cases h
      · exact .inr ⟨_, List.mem_singleton.mp h⟩
    · cases h

/-- No state is entered inside a pass. -/
theorem dispatches_passEvents (sc : Scanner) (state : State) :
    dispatches (sc.passEvents state) = [] := by
  have hnone : dispatches (sc.read.2.rulingEvents (state.ruling sc.read.1)) = [] := by
    rw [dispatches, List.filterMap_eq_nil_iff]
    intro e he
    rcases mem_rulingEvents he with rfl | ⟨m, rfl⟩ <;> rfl
  exact hnone

/-- Every pass reads once. -/
theorem count_read_passEvents (sc : Scanner) (state : State) :
    (sc.passEvents state).count .read = 1 := by
  have hnone : Event.read ∉ sc.read.2.rulingEvents (state.ruling sc.read.1) := by
    intro hread
    rcases mem_rulingEvents hread with h | ⟨m, h⟩ <;> cases h
  rw [passEvents_eq, List.count_cons_self, List.count_eq_zero.mpr hnone]

/-- Progress puts one dispatch before the other. -/
theorem Progress.before {state state' : State} {sc sc' : Scanner}
    (h : Progress state sc state' sc') : (sc.dispatch state).Before (sc'.dispatch state') := by
  rcases h with ⟨s, rest, -, hnext⟩ | ⟨hnext, hlower⟩
  · left
    have hpos := s.size_pos
    simp only [dispatch, hnext, Position.offset_after]
    omega
  · exact .inr ⟨by simp only [dispatch, hnext], hlower⟩

/-- The dispatch behind a token, unless the token ends the source. -/
def following (result : Token × Scanner) : List Dispatch :=
  if result.1.kind = .endOfFile then [] else [result.2.dispatch result.2.resume]

/-- The dispatches on the way to a token and behind it are in order. -/
theorem isChain_course (state : State) (sc : Scanner) :
    (sc.dispatch state :: (dispatches (course state sc).events ++
      following (course state sc).result)).IsChain Dispatch.Before := by
  fun_induction course state sc with
  | case1 state sc sc' hpass ih =>
    have hbefore : (sc.dispatch state).Before (sc'.dispatch state) :=
      Progress.before (.inl (advances_of_again hpass))
    rw [Course.after, dispatches_append, dispatches_passEvents, List.nil_append]
    exact ih.imp_head fun h => Trans.trans hbefore h
  | case2 state sc state' sc' hpass ih =>
    rw [Course.after, dispatches_append, dispatches_append, dispatches_passEvents, List.nil_append]
    exact .cons_cons (progress_of_goto hpass).before ih
  | case3 state sc token sc' hpass =>
    rw [dispatches_passEvents, List.nil_append, following]
    split
    · exact List.isChain_singleton _
    · exact List.isChain_pair.mpr (progress_of_emit hpass ‹_›).before

/-- A token begins with the dispatch of the state that the scanner resumes. -/
theorem dispatches_pullCourse (sc : Scanner) :
    dispatches sc.pullCourse.events =
      sc.dispatch sc.resume :: dispatches (course sc.resume sc).events := rfl

/-- The dispatches on the way to the end are in order. -/
theorem isChain_courseToEnd (sc : Scanner) :
    (dispatches sc.courseToEnd.events).IsChain Dispatch.Before := by
  have hchain := isChain_course sc.resume sc
  rw [result_course, following] at hchain
  rw [courseToEnd_eq]
  split
  · rename_i hkind
    rw [if_pos (by exact hkind), List.append_nil] at hchain
    exact hchain
  · rename_i hkind
    rw [if_neg (by exact hkind)] at hchain
    have hmore := isChain_courseToEnd sc.pull.2
    -- the dispatch in which the two chains meet is the first one behind the token
    obtain ⟨others, hothers⟩ : ∃ others, dispatches sc.pull.2.courseToEnd.events =
        sc.pull.2.dispatch sc.pull.2.resume :: others := by
      rw [courseToEnd_eq]
      split
      · exact ⟨_, dispatches_pullCourse _⟩
      · dsimp only
        rw [dispatches_append, dispatches_pullCourse]
        exact ⟨_, rfl⟩
    dsimp only
    rw [dispatches_append, dispatches_pullCourse, hothers]
    rw [hothers] at hmore
    exact List.isChain_split.mpr ⟨hchain, hmore⟩
termination_by sc.remaining
decreasing_by exact remaining_pull_lt ‹_›

/-- From the beginning of a source to its end no state is entered twice at the same place. -/
theorem nodup_dispatches_courseToEnd (sc : Scanner) :
    (dispatches sc.courseToEnd.events).Nodup :=
  (isChain_courseToEnd sc).pairwise.nodup

/-! ## How many readings there are -/

/-- How many readings can follow a token, at most. -/
def readingsBehind (result : Token × Scanner) : Nat :=
  if result.1.kind = .endOfFile then 0 else result.2.measure result.2.resume + 1

/-- Every reading lowers the measure, except for the last one of a source. -/
theorem count_read_course (state : State) (sc : Scanner) :
    (course state sc).events.count .read + readingsBehind (course state sc).result ≤
      sc.measure state + 1 := by
  fun_induction course state sc with
  | case1 state sc sc' hpass ih =>
    have hlt : sc'.measure state < sc.measure state :=
      Progress.measure_lt (.inl (advances_of_again hpass))
    simp only [Course.after, List.count_append, count_read_passEvents]
    omega
  | case2 state sc state' sc' hpass ih =>
    have hlt := (progress_of_goto hpass).measure_lt
    have hdispatch : List.count Event.read [.dispatch (sc'.dispatch state')] = 0 := rfl
    simp only [Course.after, List.count_append, count_read_passEvents, hdispatch]
    omega
  | case3 state sc token sc' hpass =>
    dsimp only
    rw [count_read_passEvents, readingsBehind]
    split
    · omega
    · have hlt := (progress_of_emit hpass ‹_›).measure_lt
      dsimp only
      omega

/-- On the way to the end every reading lowers the measure. -/
theorem count_read_courseToEnd (sc : Scanner) :
    sc.courseToEnd.events.count .read ≤ sc.measure sc.resume + 1 := by
  have hpull := count_read_course sc.resume sc
  rw [result_course, readingsBehind] at hpull
  have hcount : sc.pullCourse.events.count .read = (course sc.resume sc).events.count .read := rfl
  rw [courseToEnd_eq]
  split
  · dsimp only
    omega
  · rename_i hkind
    have hmore := count_read_courseToEnd sc.pull.2
    rw [if_neg (by exact hkind)] at hpull
    have hbehind : (run sc.resume sc).2 = sc.pull.2 := rfl
    rw [hbehind] at hpull
    dsimp only
    rw [List.count_append]
    omega
termination_by sc.remaining
decreasing_by exact remaining_pull_lt ‹_›

end Scanner

end AsmLexer
