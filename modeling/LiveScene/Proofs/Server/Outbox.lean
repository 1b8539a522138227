import Mathlib.Data.List.Forall2
import LiveScene.Command.Text
import LiveScene.Server.Outbox

/-!
# The outbox keeps its books

A command that is pushed leaves the outbox in a message, is dropped, or waits. Whatever is done to
an outbox, one `Outbox.Operation` after the other, each of them returns a text or a count
(`Outbox.Outcome`), and `Outbox.Leaves` says which encodings leave by it: those joined in the
message, or as many as were counted. As long as nothing waits while autoflush is on, which every
operation keeps, the books balance over one operation (`Outbox.perform_balances`), and so they do
over any sequence of operations (`Outbox.ledger_balances`).
-/

namespace LiveScene.Outbox

/-- Something that is done to an outbox. -/
inductive Operation where
  | push (c : Command)
  | take
  | setAutoflush (on : Bool)
  | discard

/-- The command that is pushed. -/
def Operation.pushed? : Operation → Option Command
  | push c => some c
  | _ => none

/-- The mode that is set. -/
def Operation.mode? : Operation → Option Bool
  | setAutoflush on => some on
  | _ => none

/-- What an operation returns. -/
inductive Outcome where
  /-- the text of a message, if there is one to send -/
  | message (text : Option String)
  /-- how many commands were dropped -/
  | dropped (count : Nat)

/-- Does something to an outbox. -/
def perform (q : Outbox) : Operation → Outcome × Outbox
  | .push c => (.message ((q.push c).1.map Command.message), (q.push c).2)
  | .take => (.message (q.take.1.map Command.message), q.take.2)
  | .setAutoflush on =>
    (.message ((q.setAutoflush on).1.map Command.message), (q.setAutoflush on).2)
  | .discard => (.dropped q.discard.1.length, q.discard.2)

/-- The outbox after some operations. -/
def after (q : Outbox) (ops : List Operation) : Outbox := ops.foldl (fun q op => (q.perform op).2) q

/-- Some operations with what each of them returns, in order. -/
def history (q : Outbox) : List Operation → List (Operation × Outcome)
  | [] => []
  | op :: ops => (op, (q.perform op).1) :: (q.perform op).2.history ops

/-- The encodings `es` leave an outbox by an operation that returns this outcome. -/
inductive Leaves : Operation → Outcome → List String → Prop
  | pushed (c : Command) : Leaves (.push c) (.message (some (batch [c.encode]))) [c.encode]
  | kept (c : Command) : Leaves (.push c) (.message none) []
  | taken {es : List String} (h : es ≠ []) : Leaves .take (.message (some (batch es))) es
  | idle : Leaves .take (.message none) []
  | released {es : List String} (h : es ≠ []) :
    Leaves (.setAutoflush true) (.message (some (batch es))) es
  | switched (on : Bool) : Leaves (.setAutoflush on) (.message none) []
  | dropped (es : List String) : Leaves .discard (.dropped es.length) es

/-- Nothing waits while autoflush is on. -/
def Drained (q : Outbox) : Prop := q.autoflush = true → q.pending = []

/-- The encodings of what waits. -/
def waiting (q : Outbox) : List String := q.pending.map Command.encode

variable {q : Outbox}

/-! ## One operation -/

theorem autoflush_perform (q : Outbox) (op : Operation) :
    (q.perform op).2.autoflush = op.mode?.getD q.autoflush := by
  cases op <;> simp [perform, discard, Operation.mode?]

/-- Taking either finds nothing or returns all that waits, and nothing waits any more. -/
theorem take_cases (q : Outbox) :
    (q.pending = [] ∧ q.take = (none, q)) ∨
      (q.pending ≠ [] ∧ q.take = (some q.pending, { q with pending := [] })) := by
  unfold take
  cases h : q.pending with
  | nil => exact Or.inl ⟨rfl, rfl⟩
  | cons c cs => exact Or.inr ⟨by simp, rfl⟩

/-- What an operation takes out, with what waits after it, is what waited before it, with what it
has put in. -/
theorem perform_balances (hq : q.Drained) (op : Operation) :
    (q.perform op).2.Drained ∧
      ∃ es, Leaves op (q.perform op).1 es ∧
        es ++ (q.perform op).2.waiting = q.waiting ++ op.pushed?.toList.map Command.encode := by
  cases op with
  | push c =>
    cases hon : q.autoflush with
    | true =>
      simp only [perform, push, hon, if_true]
      exact ⟨hq, _, .pushed c, by simp [waiting, hq hon, Operation.pushed?]⟩
    | false =>
      simp only [perform, push, hon, Bool.false_eq_true, if_false]
      exact ⟨(nomatch ·), _, .kept c, by simp [waiting, Operation.pushed?]⟩
  | take =>
    rcases q.take_cases with ⟨hpending, htake⟩ | ⟨hpending, htake⟩
    · simp only [perform, htake]
      exact ⟨hq, _, .idle, by simp [Operation.pushed?]⟩
    · simp only [perform, htake]
      exact ⟨fun _ => rfl, _, .taken (by simpa using hpending),
        by simp [waiting, Operation.pushed?]⟩
  | setAutoflush on =>
    cases on with
    | false =>
      simp only [perform, setAutoflush, Bool.false_eq_true, if_false]
      exact ⟨(nomatch ·), _, .switched false, by simp [waiting, Operation.pushed?]⟩
    | true =>
      rcases take_cases { q with autoflush := true } with ⟨hpending, htake⟩ | ⟨hpending, htake⟩
      · simp only [perform, setAutoflush, htake]
        exact ⟨fun _ => hpending, _, .switched true, by simp [waiting, Operation.pushed?]⟩
      · simp only [perform, setAutoflush, htake]
        exact ⟨fun _ => rfl, _, .released (by simpa using hpending),
          by simp [waiting, Operation.pushed?]⟩
  | discard =>
    have hcount : q.pending.length = q.waiting.length := by simp [waiting]
    simp only [perform, discard, hcount]
    exact ⟨fun _ => rfl, _, .dropped q.waiting, by simp [waiting, Operation.pushed?]⟩

/-! ## Any sequence of operations -/

/-- The books balance over some operations on an outbox in which something may wait already. -/
theorem after_balances (hq : q.Drained) (ops : List Operation) :
    (q.after ops).Drained ∧
      ∃ parts : List (List String),
        List.Forall₂ (fun entry es => Leaves entry.1 entry.2 es) (q.history ops) parts ∧
        parts.flatten ++ (q.after ops).waiting =
          q.waiting ++ (ops.filterMap Operation.pushed?).map Command.encode := by
  induction ops generalizing q with
  | nil => exact ⟨hq, [], .nil, by simp [after]⟩
  | cons op ops ih =>
    obtain ⟨hdrained, es, hleaves, hbalance⟩ := perform_balances hq op
    obtain ⟨hafter, parts, hparts, hrest⟩ := ih hdrained
    refine ⟨hafter, es :: parts, .cons hleaves hparts, ?_⟩
    calc (es :: parts).flatten ++ (q.after (op :: ops)).waiting
        = es ++ (parts.flatten ++ ((q.perform op).2.after ops).waiting) := by simp [after]
      _ = (es ++ (q.perform op).2.waiting) ++
          (ops.filterMap Operation.pushed?).map Command.encode := by
        rw [hrest, List.append_assoc]
      _ = q.waiting ++ ((op :: ops).filterMap Operation.pushed?).map Command.encode := by
        rw [hbalance, List.append_assoc]
        cases h : op.pushed? <;> simp [h]

/-- The mode is the one that was set last. -/
theorem autoflush_after (q : Outbox) (ops : List Operation) :
    (q.after ops).autoflush = (ops.filterMap Operation.mode?).getLastD q.autoflush := by
  induction ops generalizing q with
  | nil => rfl
  | cons op ops ih =>
    rw [after, List.foldl_cons, ← after, ih, autoflush_perform]
    cases h : op.mode? with
    | none => rw [List.filterMap_cons_none h, Option.getD_none]
    | some on => rw [List.filterMap_cons_some h, List.getLastD_cons, Option.getD_some]

/-- The ledger of an outbox balances, in whichever mode it is created and whatever is done to it.
Nothing ever waits while autoflush is on, or after what waits is taken or dropped. A message is
never empty, and one that comes of pushing has just the command that was pushed. The encodings in
all messages and those that were dropped, in the order of the operations by which they left,
followed by what still waits, are the encodings of all commands that were pushed, in order. -/
theorem ledger_balances (on : Bool) (ops : List Operation) :
    (after ⟨on, []⟩ ops).autoflush = (ops.filterMap Operation.mode?).getLastD on ∧
      ((after ⟨on, []⟩ ops).autoflush = true → (after ⟨on, []⟩ ops).pending = []) ∧
      (after ⟨on, []⟩ (ops ++ [.take])).pending = [] ∧
      (after ⟨on, []⟩ (ops ++ [.discard])).pending = [] ∧
      ∃ parts : List (List String),
        List.Forall₂ (fun entry es => Leaves entry.1 entry.2 es) (history ⟨on, []⟩ ops) parts ∧
        parts.flatten ++ (after ⟨on, []⟩ ops).waiting =
          (ops.filterMap Operation.pushed?).map Command.encode := by
  have hnew : Drained ⟨on, []⟩ := fun _ => rfl
  obtain ⟨hdrained, hbalance⟩ := after_balances hnew ops
  refine ⟨autoflush_after _ ops, hdrained, ?_, ?_, hbalance⟩
  · simp [after, perform]
  · simp [after, perform, discard]

end LiveScene.Outbox
