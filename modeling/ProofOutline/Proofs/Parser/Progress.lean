import ProofOutline.Proofs.Parser.Counting
import ProofOutline.Proofs.Parser.Declaration

/-!
# Counting parsers come to an end

A parser with a counter does what the parser with the room left at its depth
does.  The proof goes up the strata of one level and then, level by level, along
that room; the loops over arguments and statements end because each round takes
a token.  So every run ends, with as many levels left as were entered and never
more than `maxNesting` of them, and one that succeeds has taken a token.
-/

namespace ProofOutline.Counting

open ProofOutline.Parser (Deeper ofStratum leaf binary startsWith argumentsNode)
open Tokens

/-! ## Progress -/

def Progresses (parser : Parser Tree) : Prop :=
  ∀ ⦃tokens rest : List Token⦄ ⦃tree : Tree⦄,
    parser tokens = .ok (tree, rest) → rest.length < tokens.length

private theorem length_lt_of_yield {yield rest tokens : List Token}
    (nonempty : yield ≠ []) (h : yield ++ rest = tokens) :
    rest.length < tokens.length := by
  have taken := List.length_pos_iff.mpr nonempty
  rw [← h, List.length_append]
  omega

private theorem progresses_of_sound {stratum : Stratum} {bound : Nat}
    {parser : Parser Tree} (sound : SoundFor stratum bound parser) :
    Progresses parser := by
  intro tokens rest tree parsed
  obtain ⟨phrase, -, taken, -⟩ := sound parsed
  exact length_lt_of_yield phrase.yield_ne_nil taken

private theorem progresses_statement : Progresses Parser.statement := by
  intro tokens rest tree parsed
  obtain ⟨statement, -, taken, -⟩ := sound_statement parsed
  exact length_lt_of_yield statement.yield_ne_nil taken

private theorem progresses_argumentList (room : Nat) :
    Progresses (Parser.argumentList (.ofRoom room)) := by
  intro tokens rest tree parsed
  obtain ⟨⟨opening, after⟩, opened, -⟩ := bind_eq_ok_iff.mp parsed
  obtain ⟨rfl, isOpening⟩ := Parser.expect_eq_ok_iff.mp opened
  cases empty : startsWith (· = .rparen) after with
  | true =>
      obtain ⟨closing, behind, rfl, isClosing⟩ :=
        Parser.exists_of_startsWith empty
      rw [Parser.argumentList_empty _ behind isOpening
        (of_decide_eq_true isClosing)] at parsed
      cases parsed
      simp only [List.length_cons]
      omega
  | false =>
      rw [Parser.argumentList_items _ isOpening empty] at parsed
      obtain ⟨⟨items, last⟩, read, built⟩ := bind_eq_ok_iff.mp parsed
      cases built
      obtain ⟨args, -, rfl, -⟩ := sound_arguments (deeperSound_ofRoom room) read
      simp only [List.length_cons, List.length_append]
      omega

/-! ## One level -/

/-- At this depth the nested procedures do what the parsers one level down do. -/
structure Counts (tokens : List Token) (depth : Nat) (deeper : Deeper) :
    Prop where
  bounded : depth ≤ maxNesting
  expression : FollowsAt tokens depth depth (nested tokens .implication)
    deeper.expression
  negand : FollowsAt tokens depth depth (nested tokens .negation)
    deeper.negand
  operand : FollowsAt tokens depth depth (nested tokens .unary)
    deeper.operand
  more : ∀ (chain : Chain) (left : Tree) {count : Nat}, count ≤ depth →
    FollowsAt tokens depth (depth - count) (links tokens chain left count)
      (chain.goOn deeper left)

private theorem argumentsNode_append (opening closing : Token)
    (items : List Tree) (argument : Tree) :
    argumentsNode opening (items ++ [argument, leaf .rparen closing]) =
      .node .arguments (opening.span.through closing.span)
        (leaf .lparen opening :: items ++ [argument, leaf .rparen closing]) := by
  have last : (leaf .lparen opening :: items ++
      [argument, leaf .rparen closing]).getLast? =
        some (leaf .rparen closing) := by
    rw [List.getLast?_append]
    rfl
  rw [argumentsNode, ← List.cons_append, last]
  rfl

section Level

variable {tokens : List Token} {depth : Nat} {deeper : Deeper}
  (counts : Counts tokens depth deeper)

include counts

private theorem follows_arguments (opening : Token) {rounds : Nat}
    {start : Counter} (isDepth : start.depth = depth)
    (enough : (tokens.drop start.index).length < rounds)
    (items : List Tree) :
    Follows tokens start depth
      (arguments tokens opening (leaf .lparen opening :: items))
      (Parser.arguments deeper.expression rounds >>= fun more =>
        pure (argumentsNode opening (items ++ more))) := by
  induction rounds generalizing start items with
  | zero => cases enough
  | succ rounds ih =>
      rw [arguments, Parser.arguments, bind_assoc]
      refine (counts.expression isDepth).bind
        fun argument next reaches _ isDepth => ?_
      rw [bind_assoc]
      refine (followsAt_advance isDepth).bind
        fun token last _ taken isDepth => ?_
      have forward := reaches.forward
      have shorter := congrArg List.length (Parser.advance_eq_ok_iff.mp taken)
      simp only [List.length_cons, List.length_drop] at shorter enough
      obtain ⟨kind, span⟩ := token
      cases kind with
      | comma =>
          have onward := ih isDepth (by simp only [List.length_drop]; omega)
            (items ++ [argument, leaf .comma ⟨.comma, span⟩])
          simp only [bind_assoc, pure_bind]
          simpa using onward
      | rparen =>
          simp only [pure_bind, argumentsNode_append]
          exact followsAt_pure _ isDepth
      | _ => exact followsAt_refuse _ _ isDepth

private theorem followsAt_argumentList :
    FollowsAt tokens depth depth (argumentList tokens)
      (Parser.argumentList deeper) := by
  have form : Parser.argumentList deeper = (do
      let opening ← Parser.expect .lparen
      if ← Parser.at? (· = .rparen) then
        let closing ← Parser.advance
        return argumentsNode opening [leaf .rparen closing]
      else
        let items ← Parser.arguments deeper.expression ((← get).length + 1)
        return argumentsNode opening items) := rfl
  rw [argumentList, form]
  refine (followsAt_expect _).bind fun opening => ?_
  refine .ite ?_ ?_
  · exact followsAt_advance.bind fun closing => followsAt_pure _
  · intro start isDepth
    exact follows_arguments counts opening isDepth (Nat.lt_succ_self _) []

private theorem followsAt_primary :
    FollowsAt tokens depth depth (primary tokens) (Parser.primary deeper) := by
  rw [primary]
  refine followsAt_advance.bind fun token => ?_
  obtain ⟨kind, span⟩ := token
  cases kind with
  | int digits => exact followsAt_pure _
  | kwTrue => exact followsAt_pure _
  | kwFalse => exact followsAt_pure _
  | ident text =>
      refine .ite ?_ (followsAt_pure _)
      exact (followsAt_argumentList counts).bind fun args => followsAt_pure _
  | lparen =>
      refine .ite ?_ ?_
      · exact followsAt_advance.bind fun closing => followsAt_refuse _ _
      · refine counts.expression.bind fun inner => ?_
        exact (followsAt_expect _).bind fun closing => followsAt_pure _
  | _ => exact followsAt_refuse _ _

private theorem followsAt_unary :
    FollowsAt tokens depth depth (level tokens .unary)
      (Parser.unary deeper) := by
  rw [level]
  refine .ite ?_ ?_
  · refine followsAt_advance.bind fun sign => ?_
    exact counts.operand.bind fun operand => followsAt_pure _
  · rw [level]
    exact followsAt_primary counts

theorem followsAt_chain (chain : Chain)
    (unfolded : level tokens chain.stratum =
      level tokens chain.operand >>= fun left => links tokens chain left 0)
    (operands : FollowsAt tokens depth depth (level tokens chain.operand)
      (ofStratum chain.operand deeper)) :
    FollowsAt tokens depth depth (level tokens chain.stratum)
      (ofStratum chain.stratum deeper) := by
  have form : ofStratum chain.stratum deeper =
      ofStratum chain.operand deeper >>= fun left =>
        (chain.goOn deeper left : Parser Tree) :=
    funext fun tokens => chain.parser deeper tokens
  rw [unfolded, form]
  exact operands.bind fun left => counts.more chain left (Nat.zero_le _)

omit counts in
private theorem followsAt_comparison
    (sums : FollowsAt tokens depth depth (level tokens .sum)
      (Parser.sum deeper)) :
    FollowsAt tokens depth depth (level tokens .comparison)
      (Parser.comparison deeper) := by
  rw [level]
  refine sums.bind fun left => .ite ?_ (followsAt_pure _)
  refine followsAt_advance.bind fun op => sums.bind fun right => ?_
  refine .ite ?_ (followsAt_pure _)
  exact followsAt_peekSpan.bind fun span => followsAt_refuse _ _

private theorem followsAt_negation
    (comparisons : FollowsAt tokens depth depth (level tokens .comparison)
      (Parser.comparison deeper)) :
    FollowsAt tokens depth depth (level tokens .negation)
      (Parser.negation deeper) := by
  rw [level]
  refine .ite ?_ comparisons
  refine followsAt_advance.bind fun bang => ?_
  exact counts.negand.bind fun negand => followsAt_pure _

private theorem followsAt_implication
    (disjunctions : FollowsAt tokens depth depth (level tokens .disjunction)
      (Parser.disjunction deeper)) :
    FollowsAt tokens depth depth (level tokens .implication)
      (Parser.implication deeper) := by
  rw [level]
  refine disjunctions.bind fun left => .ite ?_ (followsAt_pure _)
  refine followsAt_advance.bind fun op => ?_
  exact counts.expression.bind fun right => followsAt_pure _

theorem followsAt_level (stratum : Stratum) :
    FollowsAt tokens depth depth (level tokens stratum)
      (ofStratum stratum deeper) := by
  have unaries := followsAt_unary counts
  have products := followsAt_chain counts .factors (level.eq_def ..) unaries
  have sums := followsAt_chain counts .terms (level.eq_def ..) products
  have comparisons := followsAt_comparison sums
  have negations := followsAt_negation counts comparisons
  have conjunctions :=
    followsAt_chain counts .conjuncts (level.eq_def ..) negations
  have disjunctions :=
    followsAt_chain counts .disjuncts (level.eq_def ..) conjunctions
  cases stratum with
  | implication => exact followsAt_implication counts disjunctions
  | disjunction => exact disjunctions
  | conjunction => exact conjunctions
  | negation => exact negations
  | comparison => exact comparisons
  | sum => exact sums
  | product => exact products
  | unary => exact unaries
  | primary =>
      rw [level]
      exact followsAt_primary counts

end Level

/-! ## All levels -/

section Levels

variable {tokens : List Token} {depth : Nat}

theorem followsAt_nested {stratum : Stratum} {parser : Parser Tree}
    (room : depth < maxNesting)
    (h : FollowsAt tokens (depth + 1) (depth + 1) (level tokens stratum)
      parser) :
    FollowsAt tokens depth depth (nested tokens stratum) parser := by
  rintro start rfl
  rw [nested, ← bind_pure parser]
  refine .enter room fun next _ isDeeper => ?_
  refine (h isDeeper).bind fun tree last _ _ isDeeper => ?_
  exact FollowsAt.leave room (Nat.le_add_left 1 _) (followsAt_pure tree)
    isDeeper

private theorem followsAt_links {chain : Chain} {left : Tree} {count : Nat}
    {deeper : Deeper} (bounded : depth ≤ maxNesting) (entered : count ≤ depth)
    (linked : ∀ ⦃start : Counter⦄, start.depth = depth →
      startsWith chain.isLink (tokens.drop start.index) = true →
      Follows tokens start (depth - count) (link tokens chain left count)
        (chain.more deeper left)) :
    FollowsAt tokens depth (depth - count) (links tokens chain left count)
      (chain.goOn deeper left) := by
  have form : chain.goOn deeper left =
      (do
        if ← Parser.at? chain.isLink then chain.more deeper left
        else return left : Parser Tree) :=
    funext fun tokens => (Parser.ite_at?_apply chain.isLink
      (chain.more deeper left) (pure left) tokens).symm
  intro start isDepth
  rw [links, form]
  refine follows_ite (linked isDepth) ?_
  exact FollowsAt.leave bounded entered (followsAt_pure left) isDepth

private theorem counts_none : Counts tokens maxNesting .none where
  bounded := Nat.le_refl _
  expression := by
    rw [nested]
    exact followsAt_tooDeep
  negand := by
    rw [nested]
    exact followsAt_tooDeep
  operand := by
    rw [nested]
    exact followsAt_tooDeep
  more chain left _ entered := by
    refine followsAt_links (Nat.le_refl _) entered fun start isDepth _ => ?_
    rw [link, chain.more_none]
    exact followsAt_tooDeep isDepth

private theorem Counts.follows_link {deeper : Deeper} {start : Counter}
    (deep : Counts tokens (depth + 1) deeper) (chain : Chain) (left : Tree)
    {count : Nat} (entered : count ≤ depth) (isDepth : start.depth = depth)
    (starts : startsWith chain.isLink (tokens.drop start.index) = true) :
    Follows tokens start (depth - count) (link tokens chain left count)
      (chain.more deeper.level left) := by
  have bounded := deep.bounded
  -- Only where an operator stands is the parser known to take a token first.
  obtain ⟨op, rest, front, -⟩ := Parser.exists_of_startsWith starts
  have form : chain.more deeper.level left (tokens.drop start.index) =
      (do
        let op ← Parser.advance
        let right ← ofStratum chain.operand deeper
        (chain.goOn deeper (binary chain.kind chain.opKind left op right) :
          Parser Tree)) (tokens.drop start.index) := by
    rw [front, chain.more_level]
    rfl
  -- The levels of this link and of those before it are left together.
  have exit : depth - count = depth + 1 - (count + 1) := by omega
  unfold Follows
  rw [link, form, exit]
  refine Follows.enter (by omega) fun next _ isDeeper => ?_
  refine (followsAt_advance.bind fun op => ?_) (isDepth ▸ isDeeper)
  refine (followsAt_level deep _).bind fun right => ?_
  exact deep.more chain _ (Nat.succ_le_succ entered)

theorem Counts.level {deeper : Deeper}
    (deep : Counts tokens (depth + 1) deeper) :
    Counts tokens depth deeper.level where
  bounded := Nat.le_of_succ_le deep.bounded
  expression := followsAt_nested deep.bounded (followsAt_level deep .implication)
  negand := followsAt_nested deep.bounded (followsAt_level deep .negation)
  operand := followsAt_nested deep.bounded (followsAt_level deep .unary)
  more chain left _ entered :=
    followsAt_links (Nat.le_of_succ_le deep.bounded) entered
      fun _ isDepth starts => deep.follows_link chain left entered isDepth starts

theorem counts_ofRoom {room : Nat} (h : depth + room = maxNesting) :
    Counts tokens depth (.ofRoom room) := by
  induction room generalizing depth with
  | zero =>
      cases h
      exact counts_none
  | succ room ih => exact (ih (by omega)).level

end Levels

/-! ## Declarations -/

section Declarations

variable {tokens : List Token} {depth room : Nat}

private theorem followsAt_lastFormula (bounded : depth ≤ maxNesting)
    (first : Tree) {others : List Tree} (entered : others.length ≤ depth) :
    FollowsAt tokens depth (depth - others.length)
      (do
        leave ((first :: others).length - 1)
        return first :: others)
      (pure [] >>= fun rest => pure (first :: others ++ rest)) := by
  rw [pure_bind, List.append_nil]
  exact .leave bounded entered (followsAt_pure _)

private theorem followsAt_moreFormulas (h : depth + room = maxNesting)
    (first : Tree) {others : List Tree} (entered : others.length ≤ depth) :
    FollowsAt tokens depth (depth - others.length)
      (moreFormulas tokens (first :: others))
      (Parser.moreFormulas room >>= fun rest =>
        pure (first :: others ++ rest)) := by
  induction room generalizing depth others with
  | zero =>
      rw [moreFormulas, Parser.moreFormulas, Parser.ite_at?_bind, bind_assoc]
      refine .ite ?_ (followsAt_lastFormula (by omega) first entered)
      cases h
      exact followsAt_advance.bind fun comma => followsAt_tooDeep
  | succ room ih =>
      have deeper : depth + 1 + room = maxNesting := by omega
      rw [moreFormulas, Parser.moreFormulas, Parser.ite_at?_bind, bind_assoc]
      refine .ite ?_ (followsAt_lastFormula (by omega) first entered)
      refine followsAt_advance.bind fun comma => ?_
      rintro start rfl
      refine .enter (by omega) fun next _ isDeeper => ?_
      rw [bind_assoc]
      refine ((counts_ofRoom deeper).expression.bind fun formula => ?_) isDeeper
      have onward := @ih (start.depth + 1) deeper (others ++ [formula])
        (by simp; omega)
      have exit : start.depth + 1 - (others ++ [formula]).length =
          start.depth - others.length := by
        simp only [List.length_append, List.length_singleton]
        omega
      rw [exit] at onward
      simp only [bind_assoc, pure_bind]
      simpa using onward

def assertionWithin (room : Nat) : Parser Tree := do
  let opening ← Parser.expect .lbrace
  if ← Parser.at? (· = .rbrace) then
    let closing ← Parser.advance
    Parser.fail .emptyAssertion (opening.span.through closing.span)
  else
    let first ← (Deeper.ofRoom room).expression
    let rest ← Parser.moreFormulas room
    let closing ← Parser.expect .rbrace
    return .node .assertion (opening.span.through closing.span)
      (first :: rest)

private theorem followsAt_assertion (h : depth + room = maxNesting) :
    FollowsAt tokens depth depth (assertion tokens) (assertionWithin room) := by
  refine (followsAt_expect _).bind fun opening => .ite ?_ ?_
  · exact followsAt_advance.bind fun closing => followsAt_refuse _ _
  · refine (counts_ofRoom h).expression.bind fun first => ?_
    have formulas := @followsAt_moreFormulas tokens _ _ h first [] (by simp)
    have whole := formulas.bind fun formulas =>
      (followsAt_expect .rbrace).bind fun closing => followsAt_pure
        (Tree.node .assertion (opening.span.through closing.span) formulas)
    simp only [bind_assoc, pure_bind] at whole
    exact whole

private theorem followsAt_statement :
    FollowsAt tokens 0 0 (statement tokens) Parser.statement := by
  have expressions : FollowsAt tokens 0 0 (nested tokens .implication)
      (Deeper.ofRoom maxNesting).expression :=
    (counts_ofRoom (Nat.zero_add _)).expression
  refine followsAt_advance.bind fun token => ?_
  obtain ⟨kind, span⟩ := token
  cases kind with
  | kwSkip => exact (followsAt_expect _).bind fun semi => followsAt_pure _
  | ident text =>
      refine (followsAt_expect _).bind fun op => ?_
      refine expressions.bind fun value => ?_
      exact (followsAt_expect _).bind fun semi => followsAt_pure _
  | _ => exact followsAt_refuse _ _

private theorem follows_statements {rounds : Nat} {start : Counter}
    (isDepth : start.depth = 0)
    (enough : (tokens.drop start.index).length < rounds) (found : List Tree) :
    Follows tokens start 0 (statements tokens found)
      (Parser.statements rounds >>= fun rest => pure (found ++ rest)) := by
  induction rounds generalizing start found with
  | zero => cases enough
  | succ rounds ih =>
      rw [statements, Parser.statements, Parser.ite_at?_bind]
      refine follows_ite (fun _ => ?_) ?_
      · rw [pure_bind, List.append_nil]
        exact followsAt_pure _ isDepth
      · rw [bind_assoc]
        refine (followsAt_statement isDepth).bind
          fun first next _ parsed isDepth => ?_
        have shorter := progresses_statement parsed
        have onward := ih isDepth (by omega) (found ++ [first])
        simp only [bind_assoc, pure_bind]
        simpa using onward

private theorem followsAt_statements :
    FollowsAt tokens 0 0 (statements tokens [])
      (do Parser.statements ((← get).length + 1)) := by
  intro start isDepth
  have all := follows_statements isDepth
    (Nat.lt_succ_self (tokens.drop start.index).length) []
  simp only [List.nil_append, bind_pure] at all
  exact all

private theorem followsAt_command :
    FollowsAt tokens 0 0 (command tokens) Parser.command := by
  unfold command Parser.command
  rw [← bind_assoc]
  refine followsAt_statements.bind fun trees => ?_
  cases trees with
  | nil => exact followsAt_peekSpan.bind fun span => followsAt_refuse _ _
  | cons first rest => exact followsAt_pure _

private theorem followsAt_declaration :
    FollowsAt tokens 0 0 (declaration tokens) Parser.declaration := by
  have assertions : FollowsAt tokens 0 0 (assertion tokens) Parser.assertion :=
    followsAt_assertion (Nat.zero_add maxNesting)
  refine .ite (assertions.bind fun body => ?_)
    (followsAt_command.bind fun body => ?_)
  all_goals
    refine .ite (followsAt_pure _) ?_
    exact followsAt_advance.bind fun token => followsAt_refuse _ _

end Declarations

/-! ## Whole runs -/

inductive Routine where
  | expression
  | atStratum (stratum : Stratum)
  | argumentList
  deriving DecidableEq, Repr

namespace Routine

def counting (tokens : List Token) : Routine → Counting Tree
  | expression => nested tokens .implication
  | atStratum stratum => level tokens stratum
  | argumentList => Tokens.argumentList tokens

def parser (room : Nat) : Routine → Parser Tree
  | expression => (Deeper.ofRoom room).expression
  | atStratum stratum => ofStratum stratum (.ofRoom room)
  | argumentList => Parser.argumentList (.ofRoom room)

private theorem followsAt (routine : Routine) {tokens : List Token}
    {depth room : Nat} (h : depth + room = maxNesting) :
    FollowsAt tokens depth depth (routine.counting tokens)
      (routine.parser room) := by
  have counts : Counts tokens depth (.ofRoom room) := counts_ofRoom h
  cases routine with
  | expression => exact counts.expression
  | atStratum stratum => exact followsAt_level counts stratum
  | argumentList => exact followsAt_argumentList counts

private theorem progresses (routine : Routine) (room : Nat) :
    Progresses (routine.parser room) := by
  have sound := deeperSound_ofRoom room
  cases routine with
  | expression => exact progresses_of_sound sound.expression
  | atStratum stratum => exact progresses_of_sound (sound_ofStratum sound stratum)
  | argumentList => exact progresses_argumentList room

end Routine

theorem Follows.exists_end {tokens : List Token} {start : Counter}
    {exit : Nat} {counting : Counting Tree} {parser : Parser Tree}
    (h : Follows tokens start exit counting parser)
    (bounded : start.peak ≤ maxNesting) :
    ∃ outcome final, counting start = some (outcome, final) ∧
      final.peak ≤ maxNesting ∧ outcome ≠ .error .belowZero ∧
      outcome = ((parser (tokens.drop start.index)).map Prod.fst).mapError
        .refused ∧
      ∀ tree, outcome = .ok tree →
        parser (tokens.drop start.index) =
            .ok (tree, tokens.drop final.index) ∧
          final.depth = exit ∧ Reaches tokens start final := by
  unfold Follows at h
  generalize parser (tokens.drop start.index) = result at h ⊢
  generalize counting start = answer at h ⊢
  cases h with
  | @ok value final reaches isExit =>
      have shallow := reaches.shallow
      refine ⟨.ok value, final, rfl, by omega, by simp, rfl, ?_⟩
      rintro tree ⟨rfl⟩
      exact ⟨rfl, isExit, reaches⟩
  | @error error final reaches =>
      have shallow := reaches.shallow
      refine ⟨.error (.refused error), final, rfl, by omega, by simp, rfl, ?_⟩
      rintro tree ⟨⟩

/--
Whatever the tokens, wherever a parser of expressions with a counter starts and
at whichever depth allowed, it comes to an end.  Its depth never exceeds the
bound, no level is left that was not entered, and its answer is that of the
parser with the room left at that depth.  If it succeeds, it has taken the same
tokens, at least one and none past the end, and is back at the depth it started
from.
Assertions keep to the same bounds, and declarations come to an end, with the
tree or the error of the tokens.
-/
theorem runs_end_in_bounds (tokens : List Token) :
    (∀ (routine : Routine) (index depth : Nat), depth ≤ maxNesting →
      ∃ outcome final,
        routine.counting tokens ⟨index, depth, depth⟩ =
            some (outcome, final) ∧
          final.peak ≤ maxNesting ∧ outcome ≠ .error .belowZero ∧
          outcome =
            ((routine.parser (maxNesting - depth) (tokens.drop index)).map
              Prod.fst).mapError .refused ∧
          ∀ tree, outcome = .ok tree →
            routine.parser (maxNesting - depth) (tokens.drop index) =
                .ok (tree, tokens.drop final.index) ∧
              index < final.index ∧ final.index ≤ tokens.length ∧
              final.depth = depth) ∧
    (∀ index depth : Nat, depth ≤ maxNesting →
      ∃ outcome final,
        assertion tokens ⟨index, depth, depth⟩ = some (outcome, final) ∧
          final.peak ≤ maxNesting ∧ outcome ≠ .error .belowZero ∧
          ∀ tree, outcome = .ok tree → final.depth = depth) ∧
    ∃ outcome final,
      declaration tokens ⟨0, 0, 0⟩ = some (outcome, final) ∧
        final.peak ≤ maxNesting ∧ outcome ≠ .error .belowZero ∧
        outcome = (Tree.ofTokens tokens).mapError .refused := by
  refine ⟨fun routine index depth bounded => ?_,
    fun index depth bounded => ?_, ?_⟩
  · have follows := @Routine.followsAt routine tokens depth
      (maxNesting - depth) (by omega) ⟨index, depth, depth⟩ rfl
    obtain ⟨outcome, final, ran, shallow, noFault, same, success⟩ :=
      follows.exists_end bounded
    refine ⟨outcome, final, ran, shallow, noFault, same, fun tree done => ?_⟩
    obtain ⟨parsed, isDepth, forward, inside, -⟩ := success tree done
    have taken := routine.progresses _ parsed
    simp only [List.length_drop] at taken forward inside
    exact ⟨parsed, by omega, by omega, isDepth⟩
  · have follows := @followsAt_assertion tokens depth (maxNesting - depth)
      (by omega) ⟨index, depth, depth⟩ rfl
    obtain ⟨outcome, final, ran, shallow, noFault, -, success⟩ :=
      follows.exists_end bounded
    exact ⟨outcome, final, ran, shallow, noFault,
      fun tree done => (success tree done).2.1⟩
  · have follows := @followsAt_declaration tokens ⟨0, 0, 0⟩ rfl
    obtain ⟨outcome, final, ran, shallow, noFault, same, -⟩ :=
      follows.exists_end (Nat.zero_le _)
    exact ⟨outcome, final, ran, shallow, noFault, same⟩

/--
The second operand of a sum is one level deeper.  At the greatest depth allowed
there is no room for it; one level higher up there is, and the run comes back
to where it started.
-/
theorem runs_end_in_bounds_sum :
    let tokens : List Token :=
      [⟨.int "1", ⟨0, 1⟩⟩, ⟨.plus, ⟨2, 1⟩⟩, ⟨.int "2", ⟨4, 1⟩⟩]
    let sum := (Routine.atStratum .sum).counting tokens
    maxNesting ≤ maxNesting ∧
      (∃ final, sum ⟨0, maxNesting, maxNesting⟩ =
          some (.error (.refused ⟨.tooDeep, ⟨2, 1⟩⟩), final) ∧
        final.peak ≤ maxNesting) ∧
      maxNesting - 1 ≤ maxNesting ∧
      ∃ tree final, sum ⟨0, maxNesting - 1, maxNesting - 1⟩ =
          some (.ok tree, final) ∧
        final.peak ≤ maxNesting ∧ 0 < final.index ∧ final.index ≤ 3 ∧
        final.depth = maxNesting - 1 := by
  intro tokens sum
  have ends := (runs_end_in_bounds tokens).1 (.atStratum .sum) 0
  refine ⟨Nat.le_refl _, ?_, Nat.sub_le _ _, ?_⟩
  · obtain ⟨outcome, final, ran, shallow, -, same, -⟩ :=
      ends maxNesting (Nat.le_refl _)
    have refused : outcome = .error (.refused ⟨.tooDeep, ⟨2, 1⟩⟩) := same
    exact ⟨final, refused ▸ ran, shallow⟩
  · obtain ⟨outcome, final, ran, shallow, -, same, success⟩ :=
      ends (maxNesting - 1) (Nat.sub_le _ _)
    obtain ⟨tree, done⟩ : ∃ tree, outcome = .ok tree := ⟨_, same⟩
    exact ⟨tree, final, done ▸ ran, shallow, (success tree done).2⟩

end ProofOutline.Counting
