import Brainfuck.Proofs.Brackets.Search
import Brainfuck.Proofs.Execution.Comparison
import Brainfuck.Proofs.Structure.Block

/-! The interpreter as an implementation of blocks.
Blocks are given a meaning without any counter or bracket: a loop runs its body while the
current cell is not zero. The interpreter, which only knows single bytes and searches for
brackets, ends exactly as this meaning says.
-/

namespace Brainfuck

/-- What a block makes of a store, and the fault that has stopped it. -/
inductive Block.Evaluates : Block → Store → Option Fault → Store → Prop
  | done {store : Store} : Evaluates .done store none store
  | act {action : Action} {rest : Block} {store next final : Store} {fault? : Option Fault}
    (acts : store.act action = .ok next) (behind : rest.Evaluates next fault? final)
    : Evaluates (.action action rest) store fault? final
  | fail {action : Action} {rest : Block} {store : Store} {fault : Fault}
    (fails : store.act action = .error fault)
    : Evaluates (.action action rest) store (some fault) store
  | leave {body rest : Block} {store final : Store} {fault? : Option Fault}
    (zero : store.tape.current = 0) (behind : rest.Evaluates store fault? final)
    : Evaluates (.loop body rest) store fault? final
  | again {body rest : Block} {store middle final : Store} {fault? : Option Fault}
    (nonzero : store.tape.current ≠ 0) (inside : body.Evaluates store none middle)
    (more : (Block.loop body rest).Evaluates middle fault? final)
    : Evaluates (.loop body rest) store fault? final
  | failInside {body rest : Block} {store final : Store} {fault : Fault}
    (nonzero : store.tape.current ≠ 0) (inside : body.Evaluates store (some fault) final)
    : Evaluates (.loop body rest) store (some fault) final

namespace Machine

open Block (Spells)

variable {program : Program} {address exit count : Nat} {store : Store} {metrics : Metrics}

-----------------------------------------------------------------------------------------
-- Loops
-----------------------------------------------------------------------------------------

/-- Where both brackets of a loop lead to: behind the loop, or into its body. -/
def landing (front body : List Command) (store : Store) : Nat :=
  if store.tape.current = 0 then front.length + 1 + body.length + 1 else front.length + 1

section Loops

variable {front body behind : List Command} (nested : Nested body)
  (split : program.commands = front ++ .beginLoop :: (body ++ .endLoop :: behind))

include nested split

/-- A step at the beginning of a loop. -/
theorem step_at_beginLoop (store : Store) (metrics : Metrics)
    : ∃ later,
        (placed (.source program) front.length store metrics).step
        = { machine := placed (.source program) (landing front body store) store later } := by
  have found : program.commands[front.length]? = some .beginLoop := by simp [split]
  by_cases zero : store.tape.current = 0
  · rw [landing, if_pos zero]
    exact ⟨_, step_skip found zero (Program.closingOf_partner nested split)⟩
  · rw [landing, if_neg zero]
    exact ⟨_, step_enter found zero⟩

/-- A step at the end of a loop. -/
theorem step_at_endLoop (store : Store) (metrics : Metrics)
    : ∃ later,
        (placed (.source program) (front.length + 1 + body.length) store metrics).step
        = { machine := placed (.source program) (landing front body store) store later } := by
  have found : program.commands[front.length + 1 + body.length]? = some .endLoop := by
    rw [split_at_end split, ← length_at_end front body .beginLoop]
    simp
  by_cases zero : store.tape.current = 0
  · rw [landing, if_pos zero]
    exact ⟨_, step_leave found zero⟩
  · rw [landing, if_neg zero]
    exact ⟨_, step_repeat found zero (Program.openingOf_partner nested split)⟩

end Loops

-----------------------------------------------------------------------------------------
-- What evaluates is interpreted
-----------------------------------------------------------------------------------------

/-- From an address on, the interpreter arrives at another one, or fails. -/
inductive Leads (program : Program) (address : Nat) (store : Store) (metrics : Metrics)
    (exit : Nat) : Option Fault → Store → Prop
  | arrives {count : Nat} {final : Store} {later : Metrics}
    (reached
      : (placed (.source program) address store metrics).after? count
        = some (placed (.source program) exit final later))
    : Leads program address store metrics exit none final
  | fails {last : Machine} {fault : Fault}
    (fails : (placed (.source program) address store metrics).FailsAs last fault)
    : Leads program address store metrics exit (some fault) last.store

theorem Leads.prepend {middle : Nat} {next final : Store} {between : Metrics}
    {fault? : Option Fault}
    (reached
      : (placed (.source program) address store metrics).after? count
        = some (placed (.source program) middle next between))
    (h : Leads program middle next between exit fault? final)
    : Leads program address store metrics exit fault? final := by
  cases h with
  | arrives behind => exact .arrives ((after?_add reached _).trans behind)
  | fails fails => exact .fails (fails.prepend reached)

/-- A loop leads where it evaluates to, from the place that its brackets lead to, when its
body and what is behind it do. The induction is on the derivation for the loop.
-/
theorem leads_from_landing {front body behind : List Command} (nested : Nested body)
    (split : program.commands = front ++ .beginLoop :: (body ++ .endLoop :: behind))
    {inner outer : Block}
    (leadsBody
      : ∀ {store fault? final},
          inner.Evaluates store fault? final
          → ∀ metrics,
              Leads program (front.length + 1) store metrics (front.length + 1 + body.length)
                fault? final)
    (leadsRest
      : ∀ {store fault? final},
          outer.Evaluates store fault? final
          → ∀ metrics,
              Leads program (front.length + 1 + body.length + 1) store metrics exit fault? final)
    {fault? : Option Fault} {final : Store}
    (evaluates : (Block.loop inner outer).Evaluates store fault? final) (metrics : Metrics)
    : Leads program (landing front body store) store metrics exit fault? final := by
  generalize looped : Block.loop inner outer = block at evaluates
  induction evaluates generalizing metrics with
  | done => contradiction
  | act => contradiction
  | fail => contradiction
  | leave zero evaluates =>
      cases looped
      rw [landing, if_pos zero]
      exact leadsRest evaluates metrics
  | @again _ _ store middle final fault? nonzero evaluates _ _ ih =>
      cases looped
      rw [landing, if_neg nonzero]
      cases leadsBody evaluates metrics with
      | @arrives _ _ later reached =>
          obtain ⟨_, step⟩ := step_at_endLoop nested split middle later
          exact ((ih _ rfl).prepend (after?_succ step 0)).prepend reached
  | failInside nonzero evaluates =>
      cases looped
      rw [landing, if_neg nonzero]
      cases leadsBody evaluates metrics with
      | fails fails => exact .fails fails

/-- The interpreter leads where the block of the commands at its address does. The induction
is on the spelling of the block; within a loop it is on the derivation, from the place where
the brackets of the loop lead to.
-/
theorem leads_of_evaluates {part : List Command} {block : Block} (spells : Spells part block)
    {front behind : List Command} (split : program.commands = front ++ (part ++ behind))
    {fault? : Option Fault} {final : Store} (evaluates : block.Evaluates store fault? final)
    (metrics : Metrics)
    : Leads program front.length store metrics (front ++ part).length fault? final := by
  induction spells generalizing front behind store fault? final metrics with
  | done =>
      cases evaluates
      rw [List.append_nil]
      exact .arrives (after?_zero _)
  | @comment rest block spells ih =>
      have found : program.commands[front.length]? = some .comment := by simp [split]
      have further : program.commands = (front ++ [.comment]) ++ (rest ++ behind) :=
        split_behind split
      have later := ih further evaluates (metrics.count 0 1 1)
      rw [List.append_assoc, List.length_append] at later
      exact later.prepend (after?_succ (step_comment found store metrics) 0)
  | @action command action rest block does spells ih =>
      have found : program.commands[front.length]? = some command := by simp [split]
      have step := step_command found does store metrics
      cases evaluates with
      | act acts evaluates =>
          simp only [acts] at step
          have further : program.commands = (front ++ [command]) ++ (rest ++ behind) :=
            split_behind split
          have later := ih further evaluates (metrics.count 1 0 1)
          rw [List.append_assoc, List.length_append] at later
          exact later.prepend (after?_succ step 0)
      | fail fails =>
          simp only [fails] at step
          exact .fails (.of_step (unfinished_source found) step)
  | @loop body rest inner outer inside spells ihBody ihRest =>
      have whole
          : program.commands = front ++ .beginLoop :: (body ++ .endLoop :: (rest ++ behind)) := by
        simp [split]
      have within := split_behind whole
      have past := split_behind_loop whole
      obtain ⟨later, step⟩ := step_at_beginLoop inside.nested whole store metrics
      refine Leads.prepend (after?_succ step 0)
        (leads_from_landing inside.nested whole ?_ ?_ evaluates later)
      · intro store fault? final evaluates metrics
        simpa [Nat.add_assoc, Nat.add_comm 1] using ihBody within evaluates metrics
      · intro store fault? final evaluates metrics
        simpa [Nat.add_assoc, Nat.add_comm 1] using ihRest past evaluates metrics

-----------------------------------------------------------------------------------------
-- What is interpreted evaluates
-----------------------------------------------------------------------------------------

/-- A machine from which no step succeeds is explained by a block: it is behind the block,
which evaluates without a fault, or it has stopped within.
-/
inductive Explained (program : Program) (block : Block) (store : Store) (exit bound : Nat)
    (last : Machine) : Prop
  | behind {more : Nat} {final : Store} {later : Metrics} (le : more ≤ bound)
    (evaluates : block.Evaluates store none final)
    (rest : (placed (.source program) exit final later).after? more = some last)
  | within {final : Machine} {fault : Fault} (unfinished : last.finished = false)
    (step : last.step = { machine := final, fault? := some fault })
    (evaluates : block.Evaluates store (some fault) final.store)

/-- An explanation carries over to blocks that evaluate to the same. -/
theorem Explained.imp {block larger : Block} {before : Store} {bound most : Nat}
    {last : Machine} (h : Explained program block store exit bound last) (le : bound ≤ most)
    (grows
      : ∀ {fault? final},
          block.Evaluates store fault? final → larger.Evaluates before fault? final)
    : Explained program larger before exit most last := by
  cases h with
  | behind fewer evaluates rest => exact .behind (Nat.le_trans fewer le) (grows evaluates) rest
  | within unfinished step evaluates => exact .within unfinished step (grows evaluates)

/-- A loop explains what its body and what is behind it do, from the place that its brackets
lead to. The induction is on the number of steps that are left.
-/
theorem explained_from_landing {front body behind : List Command} (nested : Nested body)
    (split : program.commands = front ++ .beginLoop :: (body ++ .endLoop :: behind))
    {inner outer : Block} {last : Machine} (stuck : last.step.fault? ≠ none)
    (explainedBody
      : ∀ {store metrics count},
          (placed (.source program) (front.length + 1) store metrics).after? count = some last
          → Explained program inner store (front.length + 1 + body.length) count last)
    (explainedRest
      : ∀ {store metrics count},
          (placed (.source program) (front.length + 1 + body.length + 1) store metrics).after?
              count
            = some last
          → Explained program outer store exit count last)
    (reached
      : (placed (.source program) (landing front body store) store metrics).after? count
        = some last)
    : Explained program (.loop inner outer) store exit count last := by
  induction count using Nat.strongRecOn generalizing store metrics with
  | ind count ih =>
      by_cases zero : store.tape.current = 0
      · rw [landing, if_pos zero] at reached
        exact (explainedRest reached).imp (Nat.le_refl count) (.leave zero)
      · rw [landing, if_neg zero] at reached
        cases explainedBody reached with
        | within unfinished step evaluates =>
            exact .within unfinished step (.failInside zero evaluates)
        | @behind more middle later le evaluates rest =>
            obtain ⟨_, step⟩ := step_at_endLoop nested split middle later
            -- The way back takes a step, so fewer are left for the next turn.
            obtain ⟨fewer, rfl, again⟩ := after?_of_stuck rest stuck step
            exact (ih fewer le again).imp (Nat.le_of_succ_le le) (.again zero evaluates)

/-- The block of the commands at its address explains where the interpreter stops, by
induction on the spelling of the block.
-/
theorem explained_of_stuck {part : List Command} {block : Block} (spells : Spells part block)
    {front behind : List Command} (split : program.commands = front ++ (part ++ behind))
    {last : Machine} (stuck : last.step.fault? ≠ none)
    (reached
      : (placed (.source program) front.length store metrics).after? count = some last)
    : Explained program block store (front ++ part).length count last := by
  induction spells generalizing front behind store metrics count with
  | done =>
      rw [List.append_nil]
      exact .behind (Nat.le_refl count) .done reached
  | @comment rest block spells ih =>
      have found : program.commands[front.length]? = some .comment := by simp [split]
      have further : program.commands = (front ++ [.comment]) ++ (rest ++ behind) :=
        split_behind split
      have step := step_comment found store metrics
      obtain ⟨fewer, rfl, later⟩ := after?_of_stuck reached stuck step
      rw [← List.length_singleton (a := Command.comment), ← List.length_append] at later
      have explained := ih further later
      rw [List.append_assoc] at explained
      exact explained.imp (Nat.le_succ fewer) id
  | @action command action rest block does spells ih =>
      have found : program.commands[front.length]? = some command := by simp [split]
      have step := step_command found does store metrics
      cases acts : store.act action with
      | error fault =>
          simp only [acts] at step
          obtain rfl := eq_of_fault reached step
          exact .within (unfinished_source found) step (.fail acts)
      | ok next =>
          simp only [acts] at step
          have further : program.commands = (front ++ [command]) ++ (rest ++ behind) :=
            split_behind split
          obtain ⟨fewer, rfl, later⟩ := after?_of_stuck reached stuck step
          rw [← List.length_singleton (a := command), ← List.length_append] at later
          have explained := ih further later
          rw [List.append_assoc] at explained
          exact explained.imp (Nat.le_succ fewer) (.act acts)
  | @loop body rest inner outer inside spells ihBody ihRest =>
      have whole
          : program.commands = front ++ .beginLoop :: (body ++ .endLoop :: (rest ++ behind)) := by
        simp [split]
      have within := split_behind whole
      have past := split_behind_loop whole
      obtain ⟨_, step⟩ := step_at_beginLoop inside.nested whole store metrics
      obtain ⟨fewer, rfl, landed⟩ := after?_of_stuck reached stuck step
      have explained
          : Explained program (.loop inner outer) store
              (front ++ .beginLoop :: (body ++ .endLoop :: rest)).length fewer last := by
        refine explained_from_landing inside.nested whole stuck ?_ ?_ landed
        · intro store metrics count reached
          simpa [Nat.add_assoc, Nat.add_comm 1] using ihBody within (by simpa using reached)
        · intro store metrics count reached
          simpa [Nat.add_assoc, Nat.add_comm 1]
            using ihRest past (by simpa [Nat.add_assoc, Nat.add_comm 1] using reached)
      exact explained.imp (Nat.le_succ fewer) id

-----------------------------------------------------------------------------------------
-- Whole programs
-----------------------------------------------------------------------------------------

section Whole

variable {block : Block} (spells : Spells program.commands block)

include spells

/-- A derivation leads a program from its start to its end, or to a failure. -/
theorem leads_of_spells {fault? : Option Fault} {final : Store}
    (evaluates : block.Evaluates store fault? final) (metrics : Metrics)
    : Leads program 0 store metrics program.size fault? final := by
  have split : program.commands = [] ++ (program.commands ++ []) := by simp
  have leads := leads_of_evaluates spells split evaluates metrics
  rwa [List.nil_append, Program.length_commands] at leads

/-- Where a program stops is explained by its block: it stops at its end, or within. -/
theorem explained_of_spells {last : Machine} (stuck : last.step.fault? ≠ none)
    (reached : (placed (.source program) 0 store metrics).after? count = some last)
    : (∃ final later,
        last = placed (.source program) program.size final later
        ∧ last.finished = true
        ∧ block.Evaluates store none final)
      ∨ ∃ final fault,
          last.finished = false
          ∧ last.step = { machine := final, fault? := some fault }
          ∧ block.Evaluates store (some fault) final.store := by
  have split : program.commands = [] ++ (program.commands ++ []) := by simp
  have explained := explained_of_stuck spells split stuck reached
  rw [List.nil_append, Program.length_commands] at explained
  cases explained with
  | @behind more final later le evaluates rest =>
      have done : (placed (.source program) program.size final later).finished = true :=
        finished_placed.mpr (Nat.le_refl _)
      obtain rfl := eq_of_fault rest (step_of_finished done)
      exact Or.inl ⟨final, later, rfl, done, evaluates⟩
  | within unfinished step evaluates => exact Or.inr ⟨_, _, unfinished, step, evaluates⟩

/-- A program returns with a store, and with its counter behind its bytes, exactly when its
block evaluates to that store.
-/
theorem finishesAs_iff_evaluates {final : Store}
    : (∃ last,
        (placed (.source program) 0 store metrics).FinishesAs last
        ∧ last.store = final
        ∧ last.counter = program.size)
      ↔ block.Evaluates store none final := by
  constructor
  · rintro ⟨last, finishes, rfl, -⟩
    obtain ⟨count, reached, done⟩ := finishesAs_iff.mp finishes
    have stuck : last.step.fault? ≠ none := by simp [step_of_finished done]
    rcases explained_of_spells spells stuck reached with
      ⟨_, _, rfl, _, evaluates⟩ | ⟨_, _, unfinished, _⟩
    · exact evaluates
    · rw [unfinished] at done
      contradiction
  · intro evaluates
    cases leads_of_spells spells evaluates metrics with
    | arrives reached =>
        refine ⟨_, finishesAs_iff.mpr ⟨_, reached, ?_⟩, rfl, rfl⟩
        exact finished_placed.mpr (Nat.le_refl _)

/-- A program returns with its counter behind its bytes. -/
theorem counter_of_finishesAs {last : Machine}
    (finishes : (placed (.source program) 0 store metrics).FinishesAs last)
    : last.counter = program.size := by
  obtain ⟨count, reached, done⟩ := finishesAs_iff.mp finishes
  have stuck : last.step.fault? ≠ none := by simp [step_of_finished done]
  rcases explained_of_spells spells stuck reached with ⟨_, _, rfl, _⟩ | ⟨_, _, unfinished, _⟩
  · rfl
  · rw [unfinished] at done
    contradiction

/-- A program fails with a store exactly when its block evaluates to that store and fault. -/
theorem failsAs_iff_evaluates {final : Store} {fault : Fault}
    : (∃ last,
        (placed (.source program) 0 store metrics).FailsAs last fault ∧ last.store = final)
      ↔ block.Evaluates store (some fault) final := by
  constructor
  · rintro ⟨final, fails, rfl⟩
    obtain ⟨count, last, reached, unfinished, step⟩ := failsAs_iff.mp fails
    have stuck : last.step.fault? ≠ none := by simp [step]
    rcases explained_of_spells spells stuck reached with
      ⟨_, _, _, done, _⟩ | ⟨_, _, _, same, evaluates⟩
    · rw [unfinished] at done
      contradiction
    · obtain ⟨rfl, rfl⟩ : _ = final ∧ _ = fault := by simpa using same.symm.trans step
      exact evaluates
  · intro evaluates
    cases leads_of_spells spells evaluates metrics with
    | fails fails => exact ⟨_, fails, rfl⟩

/-- A program runs for ever exactly when its block does not evaluate, because a run that ends
returns or fails.
-/
theorem runsForever_iff_not_evaluates
    : (placed (.source program) 0 store metrics).RunsForever
      ↔ ¬ ∃ fault? final, block.Evaluates store fault? final := by
  constructor
  · rintro forever ⟨fault?, final, evaluates⟩
    cases fault? with
    | none =>
        obtain ⟨_, finishes, _⟩ := (finishesAs_iff_evaluates spells).mpr evaluates
        exact finishes.not_runsForever forever
    | some fault =>
        obtain ⟨_, fails, _⟩ := (failsAs_iff_evaluates spells).mpr evaluates
        exact fails.not_runsForever forever
  · intro nothing
    rcases course (placed (.source program) 0 store metrics) with
      ⟨last, finishes⟩ | ⟨last, fault, fails⟩ | forever
    · have evaluates := (finishesAs_iff_evaluates spells).mp
        ⟨last, finishes, rfl, counter_of_finishesAs spells finishes⟩
      exact absurd ⟨_, _, evaluates⟩ nothing
    · have evaluates := (failsAs_iff_evaluates spells).mp ⟨last, fails, rfl⟩
      exact absurd ⟨_, _, evaluates⟩ nothing
    · exact forever

end Whole

end Machine

namespace Configuration

/-- The interpreter implements blocks: on a program whose brackets match it returns, behind
the last byte, with the store that the block evaluates to; it fails with the store and the
fault that the block evaluates to; and it runs for ever when there is no derivation.
-/
theorem interpreter_implements_block (configuration : Configuration) {program : Program}
    (matched : program.Matched) (input : Input) (output : Output)
    : ∃ (block : Block) (interpreter : Machine),
        program.block? = some block
        ∧ { configuration with engine := .interpreter }.machine? program input output
          = .ok interpreter
        ∧ (∀ store,
            (∃ final,
              interpreter.FinishesAs final
              ∧ final.store = store
              ∧ final.counter = program.size)
            ↔ block.Evaluates (.fresh configuration input output) none store)
        ∧ (∀ final, interpreter.FinishesAs final → final.counter = program.size)
        ∧ (∀ fault store,
            (∃ final, interpreter.FailsAs final fault ∧ final.store = store)
            ↔ block.Evaluates (.fresh configuration input output) (some fault) store)
        ∧ (interpreter.RunsForever
          ↔ ¬ ∃ fault? store,
              block.Evaluates (.fresh configuration input output) fault? store) := by
  obtain ⟨block, reads⟩ := Program.exists_block matched
  have spells := Program.block?_eq_some_iff.mp reads
  refine ⟨block, Machine.placed (.source program) 0 (.fresh configuration input output) {},
    reads, ?_, ?_, ?_, ?_, ?_⟩
  · rw [Machine.machine?_eq]
    rfl
  · intro store
    exact Machine.finishesAs_iff_evaluates spells
  · intro final
    exact Machine.counter_of_finishesAs spells
  · intro fault store
    exact Machine.failsAs_iff_evaluates spells
  · exact Machine.runsForever_iff_not_evaluates spells

/-- Nested loops with a comment between them, on cells that are checked. -/
theorem interpreter_implements_nested_loops
    : Program.Matched #[0x2c, 0x5b, 0x20, 0x5b, 0x2d, 0x5d, 0x5d]
      ∧ ∃ (block : Block) (interpreter : Machine),
          Program.block? #[0x2c, 0x5b, 0x20, 0x5b, 0x2d, 0x5d, 0x5d] = some block
          ∧ { policy := .checked, tapeSize := 2 : Configuration }.machine?
              #[0x2c, 0x5b, 0x20, 0x5b, 0x2d, 0x5d, 0x5d] (.stream [3]) .empty
            = .ok interpreter
          ∧ (∀ store,
              (∃ final,
                interpreter.FinishesAs final ∧ final.store = store ∧ final.counter = 7)
              ↔ block.Evaluates
                  (.fresh { policy := .checked, tapeSize := 2 } (.stream [3]) .empty) none store)
          ∧ (∀ final, interpreter.FinishesAs final → final.counter = 7)
          ∧ (∀ fault store,
              (∃ final, interpreter.FailsAs final fault ∧ final.store = store)
              ↔ block.Evaluates
                  (.fresh { policy := .checked, tapeSize := 2 } (.stream [3]) .empty) (some fault)
                  store)
          ∧ (interpreter.RunsForever
            ↔ ¬ ∃ fault? store,
                block.Evaluates
                  (.fresh { policy := .checked, tapeSize := 2 } (.stream [3]) .empty) fault?
                  store) :=
  ⟨by decide,
    interpreter_implements_block { policy := .checked, tapeSize := 2 } (by decide) (.stream [3])
      .empty⟩

end Configuration

end Brainfuck
