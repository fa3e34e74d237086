import Brainfuck.Proofs.Execution.Listening

/-! What the metrics count.
Every step that was announced is counted once, as an executed command or as a skipped comment.
Instructions change the program counter once each, whether they fail or not. Source commands do
so only when they succeed, and twice when they jump.
-/

namespace Brainfuck

/-- A source byte that is a comment. -/
def CodeUnit.isComment : CodeUnit → Bool
  | .byte value => Command.ofByte value = .comment
  | .instruction _ => false

/-- A source command that jumps when the current cell holds a number: a `[` on zero, or a `]` on
anything else.
-/
def CodeUnit.isJump (cell : Int) : CodeUnit → Bool
  | .byte value =>
      Command.ofByte value = .beginLoop ∧ cell = 0 ∨ Command.ofByte value = .endLoop ∧ cell ≠ 0
  | .instruction _ => false

/-- What a unit counts on its passage. -/
structure Passage.CountsFor (passage : Passage) (unit : CodeUnit) (cell : Int) : Prop where
  executed : passage.executed = if unit.isComment then 0 else 1
  skipped : passage.skipped = if unit.isComment then 1 else 0
  changes : passage.changes = if unit.isJump cell then 2 else 1

/-- No counter is smaller than it was. -/
structure Metrics.AtMost (metrics later : Metrics) : Prop where
  executed : metrics.executed ≤ later.executed
  skipped : metrics.skipped ≤ later.skipped
  counterChanges : metrics.counterChanges ≤ later.counterChanges

theorem Metrics.AtMost.refl (metrics : Metrics) : metrics.AtMost metrics :=
  ⟨Nat.le_refl _, Nat.le_refl _, Nat.le_refl _⟩

theorem Metrics.AtMost.trans {metrics between later : Metrics} (h : metrics.AtMost between)
    (behind : between.AtMost later)
    : metrics.AtMost later :=
  ⟨Nat.le_trans h.executed behind.executed, Nat.le_trans h.skipped behind.skipped,
    Nat.le_trans h.counterChanges behind.counterChanges⟩

theorem Metrics.atMost_count (metrics : Metrics) (executed skipped changes : Nat)
    : metrics.AtMost (metrics.count executed skipped changes) :=
  ⟨Nat.le_add_right _ _, Nat.le_add_right _ _, Nat.le_add_right _ _⟩

/-- The way to behind a partner counts two changes, if there is one. -/
theorem Passage.counts_of_behind {search : Except Fault Nat} {passage : Passage}
    (led : Passage.behind search = .ok passage)
    : passage.executed = 1 ∧ passage.skipped = 0 ∧ passage.changes = 2 := by
  cases search <;> cases led
  exact ⟨rfl, rfl, rfl⟩

/-- Every passage counts for its unit, by cases on what the unit is. -/
theorem CodeUnit.countsFor_of_passage {code : Code} {counter cell : Int} {unit : CodeUnit}
    {passage : Passage} (led : unit.passage code counter cell = .ok passage)
    : passage.CountsFor unit cell := by
  cases unit with
  | byte value =>
      have role := (Command.ofByte value).role
      generalize command : Command.ofByte value = meaning at role
      cases role with
      | comment =>
          simp only [CodeUnit.passage, command] at led
          cases led
          constructor <;> simp [isComment, isJump, command]
      | beginLoop =>
          simp only [CodeUnit.passage, command] at led
          split at led
          · rename_i zero
            obtain ⟨executed, skipped, changes⟩ := Passage.counts_of_behind led
            constructor <;> simp [isComment, isJump, command, zero, executed, skipped, changes]
          · rename_i nonzero
            cases led
            constructor <;> simp [isComment, isJump, command, nonzero]
      | endLoop =>
          simp only [CodeUnit.passage, command] at led
          split at led
          · rename_i zero
            cases led
            constructor <;> simp [isComment, isJump, command, zero]
          · rename_i nonzero
            obtain ⟨executed, skipped, changes⟩ := Passage.counts_of_behind led
            constructor <;> simp [isComment, isJump, command, nonzero, executed, skipped, changes]
      | action action does =>
          have acts : (CodeUnit.byte value).action? = some action := by
            rw [CodeUnit.action?, command, does]
          rw [passage_of_action acts] at led
          cases led
          cases meaning <;> cases does <;> constructor <;> simp [isComment, isJump, command]
  | instruction value =>
      obtain ⟨opcode, operand⟩ := value
      cases opcode <;> cases led <;> exact ⟨rfl, rfl, rfl⟩

/-- A comment never fails. -/
theorem Machine.not_isComment_of_effect {machine : Machine} {unit : CodeUnit} {fault : Fault}
    (failed : machine.effect unit = .error fault)
    : unit.isComment = false := by
  cases unit with
  | byte value =>
      cases comment : (CodeUnit.byte value).isComment with
      | false => rfl
      | true =>
          have command : Command.ofByte value = .comment := of_decide_eq_true comment
          rw [effect_of_no_action machine (by simp [CodeUnit.action?, command, Command.action?])]
            at failed
          simp [CodeUnit.passage, command] at failed
  | instruction value => rfl

namespace Machine

-----------------------------------------------------------------------------------------
-- What a step adds to the metrics
-----------------------------------------------------------------------------------------

/-- The next step succeeds. -/
def returns (machine : Machine) : Bool :=
  machine.step.fault?.isNone

/-- The next step is announced, and its notice has a property. -/
def announces (machine : Machine) (property : Notice → Bool) : Bool :=
  match machine.notice with
  | .ok notice => property notice
  | .error _ => false

/-- The next step skips a comment. -/
def skips (machine : Machine) : Bool :=
  machine.announces fun notice => notice.unit.isComment

/-- The next step succeeds, and is a jump of a source command. -/
def jumps (machine : Machine) : Bool :=
  machine.returns && machine.announces fun notice => notice.unit.isJump notice.cell

/-- What a step adds to the metrics when it was announced. -/
structure Adds (machine : Machine) (metrics : Metrics) : Prop where
  executed
    : metrics.executed = machine.metrics.executed + if machine.skips then 0 else 1
  skipped : metrics.skipped = machine.metrics.skipped + if machine.skips then 1 else 0
  changesInSource
    : ∀ program,
        machine.code = .source program
        → metrics.counterChanges
          = machine.metrics.counterChanges
            + ((if machine.returns then 1 else 0) + if machine.jumps then 1 else 0)
  changesInCode
    : ∀ list,
        machine.code = .instructions list
        → metrics.counterChanges = machine.metrics.counterChanges + 1

theorem announces_eq {machine : Machine} {notice : Notice}
    (announced : machine.notice = .ok notice) (property : Notice → Bool)
    : machine.announces property = property notice := by
  simp only [announces, announced]

/-- A machine that cannot announce its step has no notice. -/
theorem not_announced {machine : Machine} {notice : Notice}
    (unannounced : machine.finished = true ∨ machine.counter < -machine.length)
    : machine.notice ≠ .ok notice := by
  intro announced
  rcases unannounced with done | front
  · simp [Machine.notice, done] at announced
  · have found := unit_of_notice announced
    rw [unitAt_of_front front] at found
    contradiction

/-- What a failing unit adds: it is counted, and no command changes the program counter. -/
theorem adds_of_failure {machine : Machine} {notice : Notice} {fault : Fault}
    (announced : machine.notice = .ok notice)
    (effect : machine.effect notice.unit = .error fault) (fails : machine.returns = false)
    : machine.Adds (machine.charge notice.unit).metrics := by
  have visible : machine.skips = false :=
    (announces_eq announced _).trans (not_isComment_of_effect effect)
  have charged := metrics_charge announced
  rw [charged]
  constructor
  · rw [visible]
    cases machine.code <;> rfl
  · rw [visible]
    cases machine.code <;> rfl
  · intro program source
    simp [source, Metrics.charged, jumps, fails]
  · intro list instructions
    rw [instructions]
    rfl

/-- What a unit adds that succeeds, by what it counts on its passage. -/
theorem adds_of_passage {machine : Machine} {notice : Notice} {store : Store}
    {passage : Passage} (announced : machine.notice = .ok notice)
    (effect : machine.effect notice.unit = .ok (store, passage))
    (returns : machine.returns = true)
    : machine.Adds (machine.pass store passage).metrics := by
  have counts := CodeUnit.countsFor_of_passage (passage_of_effect effect)
  rw [← cell_of_notice announced] at counts
  have skips : machine.skips = notice.unit.isComment := announces_eq announced _
  have jumps : machine.jumps = notice.unit.isJump notice.cell := by
    rw [Machine.jumps, returns, Bool.true_and, announces_eq announced]
  constructor
  · rw [skips, ← counts.executed]
    rfl
  · rw [skips, ← counts.skipped]
    rfl
  · intro program source
    simp only [pass, Metrics.count, counts.changes, returns, jumps, if_true]
    split <;> rfl
  · intro list instructions
    have found := unit_of_notice announced
    rw [instructions] at found
    obtain ⟨value, unit⟩ := Code.exists_instruction found
    simp only [pass, Metrics.count, counts.changes, unit, CodeUnit.isJump, Bool.false_eq_true,
      if_false]

/-- Every step that was announced adds what it should, by cases on what the step does. -/
theorem adds_of_announced {machine : Machine} {notice : Notice}
    (announced : machine.notice = .ok notice)
    : machine.Adds machine.step.machine.metrics := by
  cases machine.stepping with
  | completed done step => exact absurd announced (not_announced (.inl done))
  | missing unfinished front kind step => exact absurd announced (not_announced (.inr front))
  | fails unfinished inside same effect step =>
      cases announced.symm.trans same
      have fails : machine.returns = false := by rw [returns, step, Option.isNone_some]
      rw [step]
      exact adds_of_failure announced effect fails
  | passes unfinished inside same effect step =>
      cases announced.symm.trans same
      have returns : machine.returns = true := by rw [returns, step, Option.isNone_none]
      rw [step]
      exact adds_of_passage announced effect returns

-----------------------------------------------------------------------------------------
-- Accounts of many steps
-----------------------------------------------------------------------------------------

/-- How many of the first attempted steps of a machine are of a kind. -/
def occurrences (machine : Machine) (kind : Machine → Bool) (count : Nat) : Nat :=
  (List.range count).countP fun attempt => kind (machine.tried attempt)

theorem occurrences_succ (machine : Machine) (kind : Machine → Bool) (count : Nat)
    : machine.occurrences kind (count + 1)
      = machine.occurrences kind count + if kind (machine.tried count) then 1 else 0 := by
  simp [occurrences, List.range_succ]

/-- The metrics of a machine that has attempted so many steps, all of them announced. -/
structure AccountsFor (start : Machine) (count : Nat) (metrics : Metrics) : Prop where
  notices : count = metrics.executed + metrics.skipped
  inCode
    : ∀ list,
        start.code = .instructions list
        → metrics.skipped = 0 ∧ metrics.counterChanges = metrics.executed
  skipped
    : ∀ program,
        start.code = .source program → metrics.skipped = start.occurrences skips count
  changes
    : ∀ program,
        start.code = .source program
        → metrics.counterChanges = start.occurrences returns count + start.occurrences jumps count

/-- No instruction is a comment. -/
theorem skips_of_instructions {machine : Machine} {list : Array Instruction}
    (instructions : machine.code = .instructions list)
    : machine.skips = false := by
  unfold skips announces
  split
  · rename_i notice announced
    have found := unit_of_notice announced
    rw [instructions] at found
    obtain ⟨value, unit⟩ := Code.exists_instruction found
    simp only [unit, CodeUnit.isComment]
  · rfl

/-- The metrics account for all steps that were announced, by induction on these steps. -/
theorem accountsFor_tried {start : Machine} (fresh : start.metrics = {}) {count : Nat}
    (announced : ∀ earlier < count, ∃ notice, (start.tried earlier).notice = .ok notice)
    : start.AccountsFor count (start.tried count).metrics := by
  induction count with
  | zero =>
      rw [tried, fresh]
      exact ⟨rfl, fun _ _ => ⟨rfl, rfl⟩, fun _ _ => rfl, fun _ _ => rfl⟩
  | succ count ih =>
      obtain ⟨notice, here⟩ := announced count (Nat.lt_succ_self count)
      have before := ih fun earlier lt => announced earlier (Nat.lt_succ_of_lt lt)
      have adds := adds_of_announced here
      have code := start.code_tried count
      rw [tried]
      constructor
      · have sum := before.notices
        rw [adds.executed, adds.skipped]
        split <;> omega
      · intro list instructions
        obtain ⟨none, changes⟩ := before.inCode list instructions
        have visible := skips_of_instructions (code.trans instructions)
        rw [adds.skipped, adds.executed, adds.changesInCode list (code.trans instructions), none,
          changes, visible]
        exact ⟨rfl, rfl⟩
      · intro program source
        rw [adds.skipped, before.skipped program source, occurrences_succ]
      · intro program source
        rw [adds.changesInSource program (code.trans source), before.changes program source,
          occurrences_succ, occurrences_succ]
        omega

/-- No step takes anything back, by cases on what it does. -/
theorem metrics_atMost_step (machine : Machine)
    : machine.metrics.AtMost machine.step.machine.metrics := by
  cases machine.stepping with
  | completed done step | missing unfinished front kind step =>
      rw [step]
      exact .refl _
  | fails unfinished inside announced effect step
  | passes unfinished inside announced effect step =>
      rw [step]
      exact machine.metrics.atMost_count _ _ _

/-- No counter ever decreases, by induction on the attempts in between. -/
theorem metrics_atMost_tried (machine : Machine) {earlier later : Nat} (le : earlier ≤ later)
    : (machine.tried earlier).metrics.AtMost (machine.tried later).metrics := by
  obtain ⟨more, rfl⟩ := Nat.exists_eq_add_of_le le
  induction more with
  | zero => exact .refl _
  | succ more ih =>
      have before := ih (Nat.le_add_right earlier more)
      exact before.trans (machine.tried (earlier + more)).metrics_atMost_step

/-- How the metrics of a machine have developed, by what its listener has heard: at every moment
they account for the notices that were admitted, and they have never decreased.
-/
structure Accounted (start last : Machine) (heard : Array Notice) : Prop where
  attempted : start.Attempted heard.toList last
  moments : ∀ count ≤ heard.size, start.AccountsFor count (start.tried count).metrics
  growing
    : ∀ earlier later,
        earlier ≤ later → (start.tried earlier).metrics.AtMost (start.tried later).metrics

/-- The metrics account exactly for the steps. Whatever is asked of a machine, under any limits
and with operations that fail and are tried again, each notice that was admitted was counted once,
executed or skipped. Instructions change the program counter as often as they are executed. Source
commands change it when they succeed, and once more when they jump.
-/
theorem metrics_account_for_steps (code : Code) (tape : Tape) (input : Input) (output : Output)
    (operations : List Operation)
    : Accounted { code, tape, input, output }
        (conductAll Array.push operations #[] { code, tape, input, output }).1
        (conductAll Array.push operations #[] { code, tape, input, output }).2 := by
  have attempted := conductAll_push { code, tape, input, output } operations
  refine ⟨attempted, ?_, fun _ _ le => metrics_atMost_tried _ le⟩
  intro count le
  apply accountsFor_tried rfl
  intro earlier lt
  have heard := Nat.lt_of_lt_of_le lt le
  exact ⟨_, attempted.announced earlier _ (List.getElem?_eq_getElem heard)⟩

end Machine

end Brainfuck
