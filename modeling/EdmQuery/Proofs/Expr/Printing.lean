import Mathlib
import EdmQuery.Expr.Printer
import EdmQuery.Proofs.Expr.Spelling

/-! The printed form of a tree that was read is made of the tokens that its nodes are written in. -/

namespace EdmQuery

open Text Recognizer

namespace Lexeme

/-- A name. -/
def named (name : String) : Lexeme :=
  (.identifier, name)

/-- An opening parenthesis. -/
def opening : Lexeme :=
  (.openParen, "(")

/-- A closing parenthesis. -/
def closing : Lexeme :=
  (.closeParen, ")")

/-- A comma. -/
def comma : Lexeme :=
  (.comma, ",")

/-- A slash. -/
def slash : Lexeme :=
  (.slash, "/")

/-- A colon. -/
def colon : Lexeme :=
  (.colon, ":")

/-- A minus. -/
def minus : Lexeme :=
  (.minus, "-")

end Lexeme

/-- The start of a member path in tokens; inside a quantifier the root has to be named. -/
def Scope.leadLexemes (inLambda : Bool) : Scope → List Lexeme
  | .root => if inLambda then [.named "$it", .slash] else []
  | .current => []
  | .bound name => [.named name, .slash]

/-- Whether a member path from a scope that goes on with a name does not look like anything else. -/
def Scope.isClear (inLambda : Bool) (name : String) : Scope → Bool
  | .root => inLambda || (name != "not" && name != "$it")
  | .current => true
  | .bound variable_ => variable_ != "not"

namespace Expression

mutual

/-- The tokens of an expression, outside or inside a quantifier. -/
def lexemes (inLambda : Bool) : Expression → List Lexeme
  | literal value => [value.lexeme]
  | property scope p => scope.leadLexemes inLambda ++ [.named p.name]
  | hop scope navigation _ inner =>
    scope.leadLexemes inLambda ++ .named navigation.name :: .slash :: inner.lexemes inLambda
  | item name _ => [.named name]
  | not operand => .named "not" :: .opening :: (operand.lexemes inLambda ++ [.closing])
  | negate operand => .minus :: .opening :: (operand.lexemes inLambda ++ [.closing])
  | binary op left right =>
    .opening :: (left.lexemes inLambda ++ .named op.keyword ::
      (right.lexemes inLambda ++ [.closing]))
  | oneOf operand items =>
    .opening :: (operand.lexemes inLambda ++ .named "in" :: .opening ::
      (allLexemes inLambda items ++ [.closing, .closing]))
  | call function arguments _ =>
    .named function.name :: .opening :: (allLexemes inLambda arguments ++ [.closing])
  | nonEmpty scope source =>
    scope.leadLexemes inLambda ++ [.named source.name, .slash, .named "any", .opening, .closing]
  | quantified scope source quantifier name predicate =>
    scope.leadLexemes inLambda ++ .named source.name :: .slash :: .named quantifier.keyword ::
      .opening :: .named name :: .colon :: (predicate.lexemes true ++ [.closing])

/-- The tokens of expressions with commas between them. -/
def allLexemes (inLambda : Bool) : List Expression → List Lexeme
  | [] => []
  | [x] => x.lexemes inLambda
  | x :: rest => x.lexemes inLambda ++ .comma :: allLexemes inLambda rest

end

/-- Whether an expression is written with an operator in front of its operand. -/
def isPrefixed : Expression → Bool
  | not _ => true
  | negate _ => true
  | _ => false

mutual

/--
Whether the printed form of an expression says what the expression is.

It does not where a member path starts like an operator or like the root, where an operator in
front stands left of one that binds tighter, and where an enumeration does not tell its value.
-/
def isLegible (inLambda : Bool) : Expression → Bool
  | literal value => value.isSpelled
  | property scope p => scope.isClear inLambda p.name
  | hop scope navigation _ inner =>
    scope.isClear inLambda navigation.name && inner.isLegible inLambda
  | item name _ => name != "not"
  | not operand => operand.isLegible inLambda
  | negate operand => operand.isLegible inLambda
  | binary op left right =>
    !(op == .has && left.isPrefixed) && left.isLegible inLambda && right.isLegible inLambda
  | oneOf operand items =>
    !operand.isPrefixed && operand.isLegible inLambda && allLegible inLambda items
  | call _ arguments _ => allLegible inLambda arguments
  | nonEmpty scope source => scope.isClear inLambda source.name
  | quantified scope source _ _ predicate =>
    scope.isClear inLambda source.name && predicate.isLegible true

/-- Whether the printed forms of several expressions say what the expressions are. -/
def allLegible (inLambda : Bool) : List Expression → Bool
  | [] => true
  | x :: rest => x.isLegible inLambda && allLegible inLambda rest

end

/-- Several expressions are legible when each one is. -/
theorem allLegible_iff {inLambda : Bool} {items : List Expression} :
    allLegible inLambda items = true ↔ ∀ x ∈ items, x.isLegible inLambda = true := by
  induction items with
  | nil => simp [allLegible]
  | cons x rest ih => simp [allLegible, ih]

/-- An expression has a token at least. -/
theorem lexemes_ne_nil (inLambda : Bool) (x : Expression) : x.lexemes inLambda ≠ [] := by
  cases x <;> simp [lexemes]

end Expression

namespace Recognizer

/-- Whether a word is made of letters and is not reserved. -/
def isPlain : List Char → Bool
  | [] => false
  | first :: more =>
    isAlphabetic first && more.all isNameChar && !reserved.contains (first :: more)

/-- A word of letters is a name. -/
theorem Word.of_isPlain {word : List Char} (plain : isPlain word = true) : Word word := by
  cases word with
  | nil => cases plain
  | cons first more =>
    simp only [isPlain, Bool.and_eq_true, Bool.not_eq_true', List.contains_eq_mem,
      decide_eq_false_iff_not] at plain
    obtain ⟨⟨letter, all⟩, free⟩ := plain
    exact Identifier.word ⟨[], first, more, rfl, .inl rfl, by rw [letter, Bool.true_or],
      List.all_eq_true.mp all⟩ free

/-- The root has a name. -/
theorem Word.root : Word "$it".toList := by
  have name : Identifier ['$', 'i', 't'] :=
    ⟨['$'], 'i', ['t'], rfl, .inr rfl, rfl, List.forall_mem_singleton.mpr rfl⟩
  exact name.word (by simp [reserved])

/-- The functions have names. -/
theorem Word.function (f : BuiltIn) : Word f.name.toList := by
  refine .of_isPlain ?_
  cases f <;> decide

/-- The operators have names. -/
theorem Word.operator (op : BinaryOp) : Word op.keyword.toList := by
  refine .of_isPlain ?_
  cases op <;> decide

/-- The quantifiers have names. -/
theorem Word.quantifier (q : Quantifier) : Word q.keyword.toList := by
  refine .of_isPlain ?_
  cases q <;> decide

/-- The operator in front of truth values is a name. -/
theorem Word.not : Word "not".toList :=
  .of_isPlain (by decide)

/-- The operator in front of alternatives is a name. -/
theorem Word.alternatives : Word "in".toList :=
  .of_isPlain (by decide)

end Recognizer

namespace Reads

variable {front rest name : List Char} {others ls : List Lexeme}

/-- Punctuation is read in front of anything. -/
theorem mark {c : Char} {kind : TokenKind} (known : TokenKind.punctuation? c = some kind)
    (visible : isBlank c = false) (behind : Reads front others rest) :
    Reads (c :: front) ((kind, c.toString) :: others) rest :=
  .cons (List.cons_ne_nil c []) (.punctuation known visible _) behind

/-- An opening parenthesis is read in front of anything. -/
theorem opening (behind : Reads front others rest) : Reads ('(' :: front) (.opening :: others) rest :=
  .mark rfl rfl behind

/-- A closing parenthesis is read in front of anything. -/
theorem closing (behind : Reads front others rest) : Reads (')' :: front) (.closing :: others) rest :=
  .mark rfl rfl behind

/-- A comma is read in front of anything. -/
theorem comma (behind : Reads front others rest) : Reads (',' :: front) (.comma :: others) rest :=
  .mark rfl rfl behind

/-- A slash is read in front of anything. -/
theorem slash (behind : Reads front others rest) : Reads ('/' :: front) (.slash :: others) rest :=
  .mark rfl rfl behind

/-- A colon is read in front of anything. -/
theorem colon (behind : Reads front others rest) : Reads (':' :: front) (.colon :: others) rest :=
  .mark rfl rfl behind

/-- A name is read in front of what does not go on with it. -/
theorem named {name : String} (word : Word name.toList) (follows : Follows afterName (front ++ rest))
    (behind : Reads front others rest) :
    Reads (name.toList ++ front) (.named name :: others) rest := by
  have some_ : name.toList ≠ [] := by
    obtain ⟨first, more, text, -⟩ := word.1.head
    rw [text]
    exact List.cons_ne_nil _ _
  have first := Lexes.word word follows
  rw [String.ofList_toList] at first
  exact .cons some_ first behind

/-- A blank may stand in front of tokens. -/
theorem blank (reads : Reads front ls rest) (some_ : ls ≠ []) : Reads (' ' :: front) ls rest := by
  cases reads with
  | nil => exact absurd rfl some_
  | cons nonempty first behind =>
    rw [← List.cons_append]
    exact .cons (List.cons_ne_nil _ _) first.blank behind

end Reads

/-- Whether a variable that a scope names has a name that can be read. -/
def Scope.IsNamed : Scope → Prop
  | .bound name => Word name.toList
  | _ => True

/-- The start of a member path is read in front of the rest of the path. -/
theorem Scope.reads_lead {scope : Scope} (named : scope.IsNamed) (inLambda : Bool)
    {front rest : List Char} {others : List Lexeme} (behind : Reads front others rest) :
    Reads ((scope.lead inLambda).toList ++ front) (scope.leadLexemes inLambda ++ others) rest := by
  cases scope with
  | root =>
    cases inLambda with
    | true => exact .named Word.root (.cons (by decide)) (.slash behind)
    | false => exact behind
  | current => exact behind
  | bound name =>
    have text : (lead inLambda (.bound name)).toList ++ front = name.toList ++ '/' :: front := by
      have slash : "/".toList = ['/'] := rfl
      simp [lead, slash]
    rw [text]
    exact .named named (.cons (by decide)) (.slash behind)

namespace Expression

/-- The printed form of an expression is read as its tokens in front of what may follow it. -/
def Prints (inLambda : Bool) (x : Expression) : Prop :=
  ∀ ⦃rest⦄, Follows afterOperand rest →
    Reads (x.write inLambda).toList (x.lexemes inLambda) rest

namespace Prints

variable {inLambda : Bool} {operand : Expression} {scope : Scope} {rest : List Char}

attribute [local simp] write writeList

/-- Several printed expressions are read with commas between them. -/
theorem list {items : List Expression} (each : ∀ x ∈ items, Prints inLambda x)
    (ends : Follows afterOperand rest) :
    Reads (writeList inLambda items).toList (allLexemes inLambda items) rest := by
  induction items with
  | nil => exact .nil rest
  | cons x others ih =>
    obtain ⟨first, each⟩ := List.forall_mem_cons.mp each
    cases others with
    | nil => exact first ends
    | cons y others =>
      have text : (writeList inLambda (x :: y :: others)).toList
          = (x.write inLambda).toList ++ ',' :: ' ' :: (writeList inLambda (y :: others)).toList := by
        have comma : ", ".toList = [',', ' '] := rfl
        simp [comma]
      have some_ : allLexemes inLambda (y :: others) ≠ [] := by
        cases others with
        | nil => exact lexemes_ne_nil inLambda y
        | cons => simp [allLexemes]
      rw [text]
      exact (first (.cons (by decide))).append (.comma ((ih each).blank some_))

/-- A variable is printed as its name. -/
theorem item {name : String} {element : PrimitiveType} (word : Word name.toList) :
    Prints inLambda (.item name element) := by
  intro rest ends
  have reads := Reads.named word (ends.mono (by decide)) (.nil rest)
  rwa [List.append_nil] at reads

/-- A denied truth value is printed in parentheses behind the operator. -/
theorem not (prints : Prints inLambda operand) : Prints inLambda (.not operand) := by
  intro rest ends
  have text : (write inLambda (.not operand)).toList
      = "not".toList ++ ' ' :: '(' :: ((operand.write inLambda).toList ++ [')']) := by
    have before : "not (".toList = "not".toList ++ [' ', '('] := rfl
    have after : ")".toList = [')'] := rfl
    simp [before, after]
  have reads : Reads (operand.write inLambda).toList (operand.lexemes inLambda) ([')'] ++ rest) :=
    prints (.cons (by decide))
  rw [text]
  exact .named Word.not (.cons (by decide))
    (.blank (.opening (reads.append (.closing (.nil rest)))) (List.cons_ne_nil _ _))

/-- An opposite is printed in parentheses behind a minus. -/
theorem negate (prints : Prints inLambda operand) : Prints inLambda (.negate operand) := by
  intro rest ends
  have text : (write inLambda (.negate operand)).toList
      = ['-'] ++ '(' :: ((operand.write inLambda).toList ++ [')']) := by
    have before : "-(".toList = ['-', '('] := rfl
    have after : ")".toList = [')'] := rfl
    simp [before, after]
  have reads : Reads (operand.write inLambda).toList (operand.lexemes inLambda) ([')'] ++ rest) :=
    prints (.cons (by decide))
  rw [text]
  exact .cons (List.cons_ne_nil _ _) (.minus _) (.opening (reads.append (.closing (.nil rest))))

/-- An operation is printed in parentheses, with blanks around its operator. -/
theorem binary {op : BinaryOp} {left right : Expression} (onLeft : Prints inLambda left)
    (onRight : Prints inLambda right) : Prints inLambda (.binary op left right) := by
  intro rest ends
  have text : (write inLambda (.binary op left right)).toList
      = '(' :: ((left.write inLambda).toList ++ ' ' :: (op.keyword.toList ++
          ' ' :: ((right.write inLambda).toList ++ [')']))) := by
    have before : "(".toList = ['('] := rfl
    have between : " ".toList = [' '] := rfl
    have after : ")".toList = [')'] := rfl
    simp [before, between, after]
  have readsRight : Reads (right.write inLambda).toList (right.lexemes inLambda) ([')'] ++ rest) :=
    onRight (.cons (by decide))
  have some_ : right.lexemes inLambda ++ [.closing] ≠ [] := by simp
  rw [text]
  refine .opening ((onLeft (.cons (by decide))).append
    (.blank (.named (.operator op) (.cons (by decide)) ?_) (List.cons_ne_nil _ _)))
  exact .blank (readsRight.append (.closing (.nil rest))) some_

/-- Alternatives are printed in parentheses behind their operand, all in parentheses. -/
theorem oneOf {items : List Expression} (prints : Prints inLambda operand)
    (each : ∀ x ∈ items, Prints inLambda x) : Prints inLambda (.oneOf operand items) := by
  intro rest ends
  have text : (write inLambda (.oneOf operand items)).toList
      = '(' :: ((operand.write inLambda).toList ++ ' ' :: ("in".toList ++ ' ' :: '(' ::
          ((writeList inLambda items).toList ++ [')', ')']))) := by
    have before : "(".toList = ['('] := rfl
    have between : " in (".toList = ' ' :: ("in".toList ++ [' ', '(']) := rfl
    have after : "))".toList = [')', ')'] := rfl
    simp [before, between, after]
  have readsItems : Reads (writeList inLambda items).toList (allLexemes inLambda items)
      ([')', ')'] ++ rest) := list each (.cons (by decide))
  rw [text]
  refine .opening ((prints (.cons (by decide))).append
    (.blank (.named .alternatives (.cons (by decide)) ?_) (List.cons_ne_nil _ _)))
  exact .blank (.opening (readsItems.append (.closing (.closing (.nil rest)))))
    (List.cons_ne_nil _ _)

/-- A call is printed with its arguments in parentheses. -/
theorem call {f : BuiltIn} {arguments : List Expression} {type : PrimitiveType}
    (each : ∀ x ∈ arguments, Prints inLambda x) : Prints inLambda (.call f arguments type) := by
  intro rest ends
  have text : (write inLambda (.call f arguments type)).toList
      = f.name.toList ++ '(' :: ((writeList inLambda arguments).toList ++ [')']) := by
    have before : "(".toList = ['('] := rfl
    have after : ")".toList = [')'] := rfl
    simp [before, after]
  have readsItems : Reads (writeList inLambda arguments).toList (allLexemes inLambda arguments)
      ([')'] ++ rest) := list each (.cons (by decide))
  rw [text]
  exact .named (.function f) (.cons (by decide)) (.opening (readsItems.append (.closing (.nil rest))))

/-- A property is printed behind the start of its path. -/
theorem property {p : Property} (named : scope.IsNamed) (word : Word p.name.toList) :
    Prints inLambda (.property scope p) := by
  intro rest ends
  have path := Reads.named word (ends.mono (by decide)) (.nil rest)
  rw [List.append_nil] at path
  have reads := Scope.reads_lead named inLambda path
  rwa [← String.toList_append] at reads

/-- A navigation property is printed between the start of its path and the rest of it. -/
theorem hop {n : Navigation} {target : String} {inner : Expression} (named : scope.IsNamed)
    (word : Word n.name.toList) (prints : Prints inLambda inner) :
    Prints inLambda (.hop scope n target inner) := by
  intro rest ends
  have text : (write inLambda (.hop scope n target inner)).toList
      = (scope.lead inLambda).toList ++ (n.name.toList ++ '/' :: (inner.write inLambda).toList) := by
    have slash : "/".toList = ['/'] := rfl
    simp [slash]
  rw [text]
  exact Scope.reads_lead named inLambda (.named word (.cons (by decide)) (.slash (prints ends)))

/-- A quantifier without a condition is printed with nothing in its parentheses. -/
theorem nonEmpty {source : Source} (named : scope.IsNamed) (word : Word source.name.toList) :
    Prints inLambda (.nonEmpty scope source) := by
  intro rest ends
  have text : (write inLambda (.nonEmpty scope source)).toList
      = (scope.lead inLambda).toList ++ (source.name.toList ++ '/' :: ("any".toList ++ ['(', ')'])) := by
    have after : "/any()".toList = '/' :: ("any".toList ++ ['(', ')']) := rfl
    simp [after]
  rw [text]
  exact Scope.reads_lead named inLambda (.named word (.cons (by decide))
    (.slash (.named (.quantifier .any) (.cons (by decide)) (.opening (.closing (.nil rest))))))

/-- A quantifier is printed with its variable in front of its condition. -/
theorem quantified {source : Source} {quantifier : Quantifier} {v : String}
    {predicate : Expression} (named : scope.IsNamed) (word : Word source.name.toList)
    (wordV : Word v.toList) (prints : Prints true predicate) :
    Prints inLambda (.quantified scope source quantifier v predicate) := by
  intro rest ends
  have text : (write inLambda (.quantified scope source quantifier v predicate)).toList
      = (scope.lead inLambda).toList ++ (source.name.toList ++ '/' :: (quantifier.keyword.toList ++
          '(' :: (v.toList ++ ':' :: ((predicate.write true).toList ++ [')'])))) := by
    have slash : "/".toList = ['/'] := rfl
    have before : "(".toList = ['('] := rfl
    have colon : ":".toList = [':'] := rfl
    have after : ")".toList = [')'] := rfl
    simp [slash, before, colon, after]
  have reads : Reads (predicate.write true).toList (predicate.lexemes true) ([')'] ++ rest) :=
    prints (.cons (by decide))
  rw [text]
  exact Scope.reads_lead named inLambda (.named word (.cons (by decide))
    (.slash (.named (.quantifier quantifier) (.cons (by decide)) (.opening
      (.named wordV (.cons (by decide)) (.colon (reads.append (.closing (.nil rest)))))))))

end Prints

/-- The printed form of a legible expression that was read is read as the tokens of the expression. -/
theorem ReadFrom.prints {c : FilterContext} {tokens : List Token} {binders : List Binder}
    {start : Option (Scope × Frame)} {x : Expression} {inLambda : Bool}
    (read : x.ReadFrom c tokens binders start) (scanned : tokenize c.input = .ok tokens)
    (variables_ : ∀ b ∈ binders, Word b.name.toList)
    (starts : ∀ scope frame, start = some (scope, frame) → scope.IsNamed)
    (legible : x.isLegible inLambda = true) : Prints inLambda x := by
  -- Every name in the tree is that of a token, and so it can be read again.
  induction read generalizing inLambda with
  | literal mem spelled =>
    intro rest ends
    have literal := Value.IsLegible.of_spells scanned mem spelled legible ""
    exact .one literal.ne_nil (literal.lexes rest ends)
  | rooted _ ih => exact ih variables_ (fun _ _ same => by cases same; trivial) legible
  | through found _ ih =>
    refine ih variables_ (fun _ _ same => ?_) legible
    cases same
    exact variables_ _ (List.mem_of_find?_eq_some found)
  | item found => exact .item (variables_ _ (List.mem_of_find?_eq_some found))
  | not _ _ ih => exact .not (ih variables_ (by simp) legible)
  | negate _ _ ih => exact .negate (ih variables_ (by simp) legible)
  | binary _ _ _ ihLeft ihRight =>
    simp only [isLegible, Bool.and_eq_true] at legible
    exact .binary (ihLeft variables_ (by simp) legible.1.2) (ihRight variables_ (by simp) legible.2)
  | oneOf _ _ _ _ ih ihItems =>
    simp only [isLegible, Bool.and_eq_true] at legible
    exact .oneOf (ih variables_ (by simp) legible.1.2) fun x mem =>
      ihItems x mem variables_ (by simp) (allLegible_iff.mp legible.2 x mem)
  | call _ _ ihItems =>
    exact .call fun x mem => ihItems x mem variables_ (by simp) (allLegible_iff.mp legible x mem)
  | @property _ scope frame t p mem named found _ =>
    have same : p.name = t.text := by simpa using List.find?_some found
    exact .property (starts scope frame rfl) (same ▸ tokenize_identifier scanned mem named)
  | @hop _ scope frame t n _ _ _ mem named _ found _ _ _ _ ih =>
    simp only [isLegible, Bool.and_eq_true] at legible
    have same : n.name = t.text := by simpa using List.find?_some found
    refine .hop (starts scope frame rfl) (same ▸ tokenize_identifier scanned mem named)
      (ih variables_ (fun _ _ same => ?_) legible.2)
    cases same
    trivial
  | @nonEmpty _ scope frame _ _ _ mem named spelled _ =>
    exact .nonEmpty (starts scope frame rfl) (spelled ▸ tokenize_identifier scanned mem named)
  | @quantified _ scope frame _ binder _ v _ _ mem named spelled ranges memV namedV _ _ _ _ ih =>
    simp only [isLegible, Bool.and_eq_true] at legible
    have wordV : Word v.text.toList := tokenize_identifier scanned memV namedV
    have inside : ∀ b ∈ binder v.text :: _, Word b.name.toList :=
      List.forall_mem_cons.mpr ⟨by cases ranges <;> exact wordV, variables_⟩
    exact .quantified (starts scope frame rfl) (spelled ▸ tokenize_identifier scanned mem named)
      wordV (ih inside (by simp) legible.2)

end Expression

end EdmQuery
