import Mathlib
import EdmQuery.Proofs.Expr.Printing

/-! Expressions as they are written, with their parentheses: how the operators in them group. -/

namespace EdmQuery

open Lexeme

/-- How tightly an operand binds that no operator takes apart. -/
def operandPrecedence : Nat := 9

/-- The operators in front of an operand. -/
inductive Sign where
  | not
  | minus
  deriving DecidableEq

namespace Sign

/-- The word for an operator in front of an operand. -/
def word : Sign → Lexeme
  | not => named "not"
  | minus => Lexeme.minus

/-- What an operator makes of the operand behind it. -/
def apply : Sign → Expression → Expression
  | not => .not
  | minus => .negate

end Sign

/-- How tightly the operator binds that a word stands for between two operands, if it does. -/
def joint? (word : Lexeme) : Option Nat :=
  if word.1 = .identifier then
    if word.2 = "in" then some inPrecedence
    else (BinaryOp.ofKeyword? word.2).map BinaryOp.precedence
  else none

/-- The value that a word stands for as a literal. -/
def literalOf (m : Model) (word : Lexeme) : Value :=
  ((⟨word.1, word.2, 0⟩ : Token).value m "").toOption.getD .null

/-- An expression as it is written: which words belong together, and where parentheses stand. -/
inductive Phrase where
  | literal (word : Lexeme)
  | property (scope : Scope) (property : Property)
  | hop (scope : Scope) (navigation : Navigation) (target : String) (inner : Phrase)
  | item (name : String) (element : PrimitiveType)
  | nonEmpty (scope : Scope) (source : Source)
  | quantified (scope : Scope) (source : Source) (quantifier : Quantifier) (name : String)
    (predicate : Phrase)
  | start (name : String) (path : Phrase)
  | call (function : BuiltIn) (arguments : List Phrase) (type : PrimitiveType)
  | enclosed (inner : Phrase)
  | prefixed (sign : Sign) (operand : Phrase)
  | infixed (op : BinaryOp) (left right : Phrase)
  | among (operand : Phrase) (items : List Phrase)

namespace Phrase

mutual

/-- The words of a phrase in their order. -/
def words : Phrase → List Lexeme
  | literal word => [word]
  | property _ p => [named p.name]
  | hop _ navigation _ inner => named navigation.name :: slash :: inner.words
  | item name _ => [named name]
  | nonEmpty _ source => [named source.name, slash, named "any", opening, closing]
  | quantified _ source quantifier name predicate =>
    named source.name :: slash :: named quantifier.keyword :: opening :: named name :: colon ::
      (predicate.words ++ [closing])
  | start name path => named name :: slash :: path.words
  | call function arguments _ =>
    named function.name :: opening :: (separated arguments ++ [closing])
  | enclosed inner => opening :: (inner.words ++ [closing])
  | prefixed sign operand => sign.word :: operand.words
  | infixed op left right => left.words ++ named op.keyword :: right.words
  | among operand items => operand.words ++ named "in" :: opening :: (separated items ++ [closing])

/-- The words of phrases with commas between them. -/
def separated : List Phrase → List Lexeme
  | [] => []
  | [p] => p.words
  | p :: rest => p.words ++ comma :: separated rest

end

mutual

/-- The expression that a phrase writes, where parentheses leave no trace. -/
def tree (m : Model) : Phrase → Expression
  | literal word => .literal (literalOf m word)
  | property scope p => .property scope p
  | hop scope navigation target inner => .hop scope navigation target (inner.tree m)
  | item name element => .item name element
  | nonEmpty scope source => .nonEmpty scope source
  | quantified scope source quantifier name predicate =>
    .quantified scope source quantifier name (predicate.tree m)
  | start _ path => path.tree m
  | call function arguments type => .call function (trees m arguments) type
  | enclosed inner => inner.tree m
  | prefixed sign operand => sign.apply (operand.tree m)
  | infixed op left right => .binary op (left.tree m) (right.tree m)
  | among operand items => .oneOf (operand.tree m) (trees m items)

/-- The expressions that phrases write. -/
def trees (m : Model) : List Phrase → List Expression
  | [] => []
  | p :: rest => p.tree m :: trees m rest

end

/-- How tightly the outermost operator of a phrase binds that is not in parentheses. -/
def binding : Phrase → Nat
  | prefixed _ _ => unaryPrecedence
  | infixed op _ _ => op.precedence
  | among _ _ => inPrecedence
  | _ => operandPrecedence

/-- The words of the phrases of a list that stand behind one of them. -/
def behind : List Phrase → List Lexeme
  | [] => []
  | p :: rest => comma :: separated (p :: rest)

/-- A phrase is part of another one, in front of some of its words. -/
inductive Part : Phrase → Phrase → List Lexeme → Prop where
  | whole (p : Phrase) : Part p p []
  | hop {scope : Scope} {navigation : Navigation} {target : String} {inner q : Phrase}
    {after : List Lexeme} (part : Part inner q after) :
    Part (.hop scope navigation target inner) q after
  | predicate {scope : Scope} {source : Source} {quantifier : Quantifier} {name : String}
    {predicate q : Phrase} {after : List Lexeme} (part : Part predicate q after) :
    Part (.quantified scope source quantifier name predicate) q (after ++ [closing])
  | start {name : String} {path q : Phrase} {after : List Lexeme} (part : Part path q after) :
    Part (.start name path) q after
  | argument {function : BuiltIn} {type : PrimitiveType} {front rest : List Phrase} {p q : Phrase}
    {after : List Lexeme} (part : Part p q after) :
    Part (.call function (front ++ p :: rest) type) q (after ++ (behind rest ++ [closing]))
  | enclosed {inner q : Phrase} {after : List Lexeme} (part : Part inner q after) :
    Part (.enclosed inner) q (after ++ [closing])
  | operand {sign : Sign} {operand q : Phrase} {after : List Lexeme}
    (part : Part operand q after) : Part (.prefixed sign operand) q after
  | left {op : BinaryOp} {left right q : Phrase} {after : List Lexeme}
    (part : Part left q after) :
    Part (.infixed op left right) q (after ++ named op.keyword :: right.words)
  | right {op : BinaryOp} {left right q : Phrase} {after : List Lexeme}
    (part : Part right q after) : Part (.infixed op left right) q after
  | choice {operand q : Phrase} {items : List Phrase} {after : List Lexeme}
    (part : Part operand q after) : Part (.among operand items) q
      (after ++ named "in" :: opening :: (separated items ++ [closing]))
  | item {operand p q : Phrase} {front rest : List Phrase} {after : List Lexeme}
    (part : Part p q after) :
    Part (.among operand (front ++ p :: rest)) q (after ++ (behind rest ++ [closing]))

/-- No operator in front of some words binds tighter than a phrase that they follow. -/
def Yields (tight : Nat) (after : List Lexeme) : Prop :=
  ∀ word ∈ after.head?, ∀ k, joint? word = some k → k ≤ tight

/-- The outermost operator of a phrase takes what it has to in front of some words: operands that
bind at least as tightly, the right one tighter, and behind a prefix all tighter operators. -/
def IsGrouped (after : List Lexeme) : Phrase → Prop
  | prefixed _ operand => unaryPrecedence ≤ operand.binding ∧
    ∀ word ∈ after.head?, ∀ k, joint? word = some k → k < unaryPrecedence
  | infixed op left right => op.precedence ≤ left.binding ∧ op.precedence < right.binding
  | among operand _ => inPrecedence ≤ operand.binding
  | _ => True

/-- A phrase whose operators have operands that bind tightly enough, in all of its parts. -/
inductive Grouped : Phrase → Prop where
  | literal (word : Lexeme) : Grouped (.literal word)
  | property (scope : Scope) (p : Property) : Grouped (.property scope p)
  | hop {scope : Scope} {navigation : Navigation} {target : String} {inner : Phrase}
    (grouped : Grouped inner) (whole : inner.binding = operandPrecedence) :
    Grouped (.hop scope navigation target inner)
  | item (name : String) (element : PrimitiveType) : Grouped (.item name element)
  | nonEmpty (scope : Scope) (source : Source) : Grouped (.nonEmpty scope source)
  | quantified {scope : Scope} {source : Source} {quantifier : Quantifier} {name : String}
    {predicate : Phrase} (grouped : Grouped predicate) :
    Grouped (.quantified scope source quantifier name predicate)
  | start {name : String} {path : Phrase} (grouped : Grouped path)
    (whole : path.binding = operandPrecedence) : Grouped (.start name path)
  | call {function : BuiltIn} {arguments : List Phrase} {type : PrimitiveType}
    (grouped : ∀ p ∈ arguments, Grouped p) : Grouped (.call function arguments type)
  | enclosed {inner : Phrase} (grouped : Grouped inner) : Grouped (.enclosed inner)
  | prefixed {sign : Sign} {operand : Phrase} (grouped : Grouped operand)
    (tight : unaryPrecedence ≤ operand.binding) : Grouped (.prefixed sign operand)
  | infixed {op : BinaryOp} {left right : Phrase} (groupedLeft : Grouped left)
    (groupedRight : Grouped right) (tightLeft : op.precedence ≤ left.binding)
    (tightRight : op.precedence < right.binding) : Grouped (.infixed op left right)
  | among {operand : Phrase} {items : List Phrase} (grouped : Grouped operand)
    (groupedItems : ∀ p ∈ items, Grouped p) (tight : inPrecedence ≤ operand.binding) :
    Grouped (.among operand items)

section

variable {p q : Phrase} {after : List Lexeme} {word : Lexeme} {k : Nat}

/-- The keyword of an operator tells how tightly it binds. -/
theorem joint?_keyword (op : BinaryOp) : joint? (named op.keyword) = some op.precedence := by
  cases op <;> rfl

/-- No operator between two operands binds as tightly as those in front of one. -/
theorem joint?_ne (joint : joint? word = some k) : k ≠ unaryPrecedence := by
  -- The list of alternatives and the test for flags bind tighter, all other operators less so.
  unfold joint? at joint
  split at joint
  · split at joint
    · cases joint
      decide
    · obtain ⟨op, -, rfl⟩ := Option.map_eq_some_iff.mp joint
      cases op <;> decide
  · cases joint

/-- The end of some words is the end of them in front of more as well. -/
theorem suffix_append_append {tail ls : List Lexeme} (suffix : tail <:+ ls) (more : List Lexeme) :
    tail ++ more <:+ ls ++ more := by
  obtain ⟨front, rfl⟩ := suffix
  exact ⟨front, (List.append_assoc ..).symm⟩

/-- A comma stands behind a phrase in front of others. -/
theorem separated_cons (p : Phrase) {ps : List Phrase} (some_ : ps ≠ []) :
    separated (p :: ps) = p.words ++ comma :: separated ps := by
  cases ps with
  | nil => exact absurd rfl some_
  | cons q ps => rfl

/-- The words of a phrase in a list are followed by those of the phrases behind it. -/
theorem words_suffix_separated (front : List Phrase) (p : Phrase) (rest : List Phrase) :
    p.words ++ behind rest <:+ separated (front ++ p :: rest) := by
  -- Each phrase in front has a comma behind it, and so has this one if another phrase follows.
  induction front with
  | nil =>
    cases rest with
    | nil => rw [behind, List.append_nil, List.nil_append, separated]
    | cons r rest => exact List.suffix_rfl
  | cons f front ih =>
    have some_ : front ++ p :: rest ≠ [] := by cases front <;> exact List.cons_ne_nil _ _
    rw [List.cons_append, separated_cons f some_]
    exact (ih.trans (List.suffix_cons _ _)).trans (List.suffix_append _ _)

/-- The words of a part are among those of the whole, in front of those that follow the part. -/
theorem Part.words_suffix (part : Part p q after) : q.words ++ after <:+ p.words := by
  -- What follows the part inside an operand is followed by what stands behind the operand.
  induction part with
  | whole p => rw [List.append_nil]
  | hop _ ih => exact ih.trans (List.suffix_append [_, slash] _)
  | start _ ih => exact ih.trans (List.suffix_append [_, slash] _)
  | operand _ ih => exact ih.trans (List.suffix_cons _ _)
  | predicate _ ih =>
    rw [← List.append_assoc]
    refine (suffix_append_append ih _).trans ?_
    exact List.suffix_append [_, slash, _, opening, _, colon] _
  | enclosed _ ih =>
    rw [← List.append_assoc]
    exact (suffix_append_append ih _).trans (List.suffix_cons _ _)
  | @argument _ _ front rest p _ _ _ ih =>
    have inside := (suffix_append_append ih (behind rest)).trans (words_suffix_separated front p rest)
    rw [← List.append_assoc, ← List.append_assoc]
    exact (suffix_append_append inside _).trans (List.suffix_append [_, opening] _)
  | left _ ih =>
    rw [← List.append_assoc]
    exact suffix_append_append ih _
  | right _ ih => exact (ih.trans (List.suffix_cons _ _)).trans (List.suffix_append _ _)
  | choice _ ih =>
    rw [← List.append_assoc]
    exact suffix_append_append ih _
  | @item _ p _ front rest _ _ ih =>
    have inside := (suffix_append_append ih (behind rest)).trans (words_suffix_separated front p rest)
    rw [← List.append_assoc, ← List.append_assoc]
    refine (suffix_append_append inside _).trans ?_
    exact (List.suffix_append [_, opening] _).trans (List.suffix_append _ _)

/-- A part of a phrase whose operators group is such a phrase. -/
theorem Grouped.part (grouped : Grouped p) (part : Part p q after) : Grouped q := by
  -- The operand that the part is in groups as well, one level after the other.
  induction part with
  | whole p => exact grouped
  | hop _ ih | start _ ih | predicate _ ih | enclosed _ ih | operand _ ih =>
    cases grouped
    apply ih
    assumption
  | argument _ ih =>
    cases grouped with
    | call grouped => exact ih (grouped _ (List.mem_append_right _ List.mem_cons_self))
  | left _ ih =>
    cases grouped with
    | infixed left right => exact ih left
  | right _ ih =>
    cases grouped with
    | infixed left right => exact ih right
  | choice _ ih =>
    cases grouped with
    | among operand items => exact ih operand
  | item _ ih =>
    cases grouped with
    | among operand items => exact ih (items _ (List.mem_append_right _ List.mem_cons_self))

/-- What follows a phrase may follow a tighter one. -/
theorem Yields.mono {tight tighter : Nat} (yields : Yields tight after) (le : tight ≤ tighter) :
    Yields tighter after :=
  fun word mem k joint => (yields word mem k joint).trans le

/-- A word that is no operator may follow any phrase. -/
theorem Yields.cons_none (none_ : joint? word = none) (tight : Nat) (after : List Lexeme) :
    Yields tight (word :: after) := by
  rintro _ ⟨⟩ k joint
  rw [none_] at joint
  cases joint

/-- An operator may follow a phrase that binds at least as tightly. -/
theorem Yields.cons_some {tight : Nat} (some_ : joint? word = some k) (le : k ≤ tight)
    (after : List Lexeme) : Yields tight (word :: after) := by
  rintro _ ⟨⟩ l joint
  rw [some_] at joint
  cases joint
  exact le

/-- A comma or a closing parenthesis follows a phrase of a list, whatever phrase it is. -/
theorem Yields.behind (rest : List Phrase) (tight : Nat) (ending : List Lexeme) :
    Yields tight (behind rest ++ ([closing] ++ ending)) := by
  cases rest with
  | nil => exact .cons_none rfl _ _
  | cons p rest => exact .cons_none rfl _ _

/-- What may follow the whole may follow its parts, with what the whole has behind them. -/
theorem Part.yields (part : Part p q after) (grouped : Grouped p) {ending : List Lexeme}
    (yields : Yields p.binding ending) : Yields q.binding (after ++ ending) := by
  -- The part is last in its operand, or else parentheses, a comma or an operator come next.
  induction part generalizing ending with
  | whole p => exact yields
  | hop _ ih | start _ ih =>
    cases grouped
    rename_i grouped whole
    exact ih grouped (whole ▸ yields)
  | predicate _ ih | enclosed _ ih =>
    cases grouped
    rename_i grouped
    rw [List.append_assoc]
    exact ih grouped (.cons_none rfl _ _)
  | operand _ ih =>
    cases grouped with
    | prefixed grouped tight => exact ih grouped (yields.mono tight)
  | left _ ih =>
    cases grouped with
    | infixed left right tight _ =>
      rw [List.append_assoc]
      exact ih left (.cons_some (joint?_keyword _) tight _)
  | right _ ih =>
    cases grouped with
    | infixed left right _ tight => exact ih right (yields.mono tight.le)
  | choice _ ih =>
    cases grouped with
    | among operand items tight =>
      rw [List.append_assoc]
      exact ih operand (.cons_some rfl tight _)
  | @argument _ _ front rest _ _ _ _ ih =>
    cases grouped with
    | call grouped =>
      have single := grouped _ (List.mem_append_right _ List.mem_cons_self)
      rw [List.append_assoc, List.append_assoc]
      exact ih single (.behind rest _ _)
  | @item _ _ _ front rest _ _ ih =>
    cases grouped with
    | among operand items =>
      have single := items _ (List.mem_append_right _ List.mem_cons_self)
      rw [List.append_assoc, List.append_assoc]
      exact ih single (.behind rest _ _)

/-- Every operator in a phrase that groups takes what it has to. -/
theorem Grouped.isGrouped (grouped : Grouped p) (part : Part p q after) : q.IsGrouped after := by
  -- Nothing follows the whole, so that what follows the part yields to it.
  have last : Yields p.binding [] := by
    intro word mem
    cases mem
  have yields := part.yields grouped last
  rw [List.append_nil] at yields
  cases grouped.part part with
  | prefixed _ tight =>
    refine ⟨tight, fun word mem k joint => ?_⟩
    exact Nat.lt_of_le_of_ne (yields word mem k joint) (joint?_ne joint)
  | infixed _ _ left right => exact ⟨left, right⟩
  | among _ _ tight => exact tight
  | _ => trivial

end

/-- What operators group: operands without operators, operators in front of them and between them,
and lists of alternatives behind them. -/
inductive Link where
  | operand (p : Phrase)
  | sign (sign : Sign)
  | joint (op : BinaryOp)
  | list (items : List Phrase)

/-- The operands and operators of a phrase in their order, however they group. -/
def links : Phrase → List Link
  | prefixed sign operand => .sign sign :: operand.links
  | infixed op left right => left.links ++ .joint op :: right.links
  | among operand items => operand.links ++ [.list items]
  | p => [.operand p]

section

variable {p q : Phrase} {op : BinaryOp} {sign : Sign} {ls : List Link}

/-- A phrase has an operand at least. -/
theorem links_ne_nil (p : Phrase) : p.links ≠ [] := by
  cases p <;> simp [links]

/-- Operators without parentheses around them bind at least as tightly as the whole. -/
theorem Grouped.binding_le_of_joint (grouped : Grouped p) (mem : .joint op ∈ p.links) :
    p.binding ≤ op.precedence := by
  -- The outermost operator binds at most as tightly as its operands, and these as theirs.
  induction grouped with
  | prefixed _ tight ih =>
    obtain _ | ⟨_, mem⟩ := mem
    exact tight.trans (ih mem)
  | infixed _ _ tightLeft tightRight ihLeft ihRight =>
    rw [links, List.mem_append, List.mem_cons] at mem
    obtain mem | same | mem := mem
    · exact tightLeft.trans (ihLeft mem)
    · cases same
      exact le_rfl
    · exact tightRight.le.trans (ihRight mem)
  | among _ _ tight ih =>
    rw [links, List.mem_append] at mem
    obtain mem | mem := mem
    · exact tight.trans (ih mem)
    · cases List.mem_singleton.mp mem
  | _ => cases List.mem_singleton.mp mem

/-- A phrase with an operator in front of all binds no tighter than the operator. -/
theorem Grouped.binding_le_of_sign (grouped : Grouped p) (starts : p.links.head? = some (.sign sign)) :
    p.binding ≤ unaryPrecedence := by
  induction grouped with
  | prefixed => exact le_rfl
  | @infixed op left right _ _ tight _ ih _ =>
    rw [links, List.head?_append_of_ne_nil _ left.links_ne_nil] at starts
    exact tight.trans (ih starts)
  | @among operand items _ _ tight ih =>
    rw [links, List.head?_append_of_ne_nil _ operand.links_ne_nil] at starts
    exact tight.trans (ih starts)
  | _ => cases starts

/-- An operator cannot take what another one takes of the same links on its other side. -/
theorem Grouped.not_crossed {op' : BinaryOp} {left right left' right' : Phrase} {between : List Link}
    (grouped : Grouped (.infixed op left right)) (grouped' : Grouped (.infixed op' left' right'))
    (inLeft : left'.links = left.links ++ .joint op :: between)
    (inRight : right.links = between ++ .joint op' :: right'.links) : False := by
  -- The first operator is in the left operand of the second, and that one in its right operand.
  cases grouped with
  | infixed _ groupedRight _ tightRight =>
    cases grouped' with
    | infixed groupedLeft _ tightLeft _ =>
      have first : left'.binding ≤ op.precedence := by
        apply groupedLeft.binding_le_of_joint
        rw [inLeft]
        exact List.mem_append_right _ List.mem_cons_self
      have second : right.binding ≤ op'.precedence := by
        apply groupedRight.binding_le_of_joint
        rw [inRight]
        exact List.mem_append_right _ List.mem_cons_self
      omega

/-- The outermost operators of phrases with the same links are the same one. -/
theorem Grouped.split_eq {op' : BinaryOp} {left right left' right' : Phrase}
    (grouped : Grouped (.infixed op left right)) (grouped' : Grouped (.infixed op' left' right'))
    (same : links (.infixed op left right) = links (.infixed op' left' right')) :
    left.links = left'.links ∧ op = op' ∧ right.links = right'.links := by
  -- Of two different ones, one would be in the left operand of the other.
  obtain ⟨between, inLeft, inRight⟩ | ⟨between, inLeft, inRight⟩ :=
    List.append_eq_append_iff.mp same
  · cases between with
    | nil =>
      obtain ⟨joint, rest⟩ := List.cons.inj inRight
      cases joint
      rw [List.append_nil] at inLeft
      exact ⟨inLeft.symm, rfl, rest⟩
    | cons link between =>
      rw [List.cons_append] at inRight
      obtain ⟨rfl, rest⟩ := List.cons.inj inRight
      exact (grouped.not_crossed grouped' inLeft rest).elim
  · cases between with
    | nil =>
      obtain ⟨joint, rest⟩ := List.cons.inj inRight
      cases joint
      rw [List.append_nil] at inLeft
      exact ⟨inLeft, rfl, rest.symm⟩
    | cons link between =>
      rw [List.cons_append] at inRight
      obtain ⟨rfl, rest⟩ := List.cons.inj inRight
      exact (grouped'.not_crossed grouped inLeft rest).elim

/-- An operand that binds tighter than any operator is a link of its own. -/
theorem links_of_binding (tight : inPrecedence < p.binding) : p.links = [.operand p] := by
  cases p with
  | infixed op =>
    have most : op.precedence ≤ inPrecedence := by cases op <;> decide
    exact absurd (tight.trans_le most) (Nat.lt_irrefl _)
  | prefixed =>
    have most : unaryPrecedence ≤ inPrecedence := by decide
    exact absurd (tight.trans_le most) (Nat.lt_irrefl _)
  | among => exact absurd tight (Nat.lt_irrefl _)
  | _ => rfl

/-- No operator between operands is outermost where another one is in front of all. -/
theorem Grouped.infixed_ne_prefixed {left right operand : Phrase}
    (grouped : Grouped (.infixed op left right)) (grouped' : Grouped (.prefixed sign operand)) :
    links (.infixed op left right) ≠ links (.prefixed sign operand) := by
  intro same
  have starts : (links (.infixed op left right)).head? = some (.sign sign) := by
    rw [same]
    rfl
  have mem : .joint op ∈ links (.prefixed sign operand) := by
    rw [← same]
    exact List.mem_append_right _ List.mem_cons_self
  -- The operator would have to bind as tightly as the one in front, which none does.
  have most : op.precedence ≤ unaryPrecedence := grouped.binding_le_of_sign starts
  have least : unaryPrecedence ≤ op.precedence := grouped'.binding_le_of_joint mem
  exact joint?_ne (joint?_keyword op) (Nat.le_antisymm most least)

/-- A list of alternatives is not outermost where an operator is in front of all. -/
theorem Grouped.among_ne_prefixed {operand operand' : Phrase} {items : List Phrase}
    (grouped : Grouped (.among operand items)) :
    links (.among operand items) ≠ links (.prefixed sign operand') := by
  intro same
  have starts : (links (.among operand items)).head? = some (.sign sign) := by
    rw [same]
    rfl
  have most : inPrecedence ≤ unaryPrecedence := grouped.binding_le_of_sign starts
  exact absurd most (by decide)

/-- No operator between operands is outermost where a list of alternatives is behind all. -/
theorem Grouped.infixed_ne_among {left right operand : Phrase} {items : List Phrase}
    (grouped : Grouped (.infixed op left right)) (grouped' : Grouped (.among operand items)) :
    links (.infixed op left right) ≠ links (.among operand items) := by
  intro same
  have mem : .joint op ∈ links (.among operand items) := by
    rw [← same]
    exact List.mem_append_right _ List.mem_cons_self
  have least : inPrecedence ≤ op.precedence := grouped'.binding_le_of_joint mem
  cases grouped with
  | infixed _ _ _ tight =>
    -- The operator would bind so tightly that what is last is a single operand, but no list.
    have last := congrArg List.getLast? same
    rw [links, links, links_of_binding (least.trans_lt tight)] at last
    simp at last

/-- A single operand among the links is the whole phrase. -/
theorem eq_of_links (single : p.links = [.operand q]) : p = q := by
  -- Every operator is a link, so that there is none.
  cases p with
  | prefixed => cases single
  | infixed op left right =>
    have mem : .joint op ∈ links (.infixed op left right) :=
      List.mem_append_right _ List.mem_cons_self
    rw [single] at mem
    cases List.mem_singleton.mp mem
  | among operand items =>
    have mem : .list items ∈ links (.among operand items) :=
      List.mem_append_right _ List.mem_cons_self
    rw [single] at mem
    cases List.mem_singleton.mp mem
  | _ =>
    cases single
    rfl

/-- Operands and operators in their order group in one way only. -/
theorem Grouped.unique (grouped : Grouped p) (grouped' : Grouped q) (same : p.links = q.links) :
    p = q := by
  -- The outermost operator is found among the links, and what it takes around it.
  induction grouped generalizing q with
  | @prefixed sign operand inner tight ih =>
    cases grouped' with
    | prefixed inner' _ =>
      obtain ⟨sign_, operand_⟩ := List.cons.inj same
      cases sign_
      rw [ih inner' operand_]
    | infixed left right tightLeft tightRight =>
      exact absurd same.symm (infixed_ne_prefixed (.infixed left right tightLeft tightRight)
        (.prefixed inner tight))
    | among inner' others tight' =>
      exact absurd same.symm (among_ne_prefixed (.among inner' others tight'))
    | _ => cases same
  | @infixed op left right groupedLeft groupedRight tightLeft tightRight ihLeft ihRight =>
    have grouped : Grouped (.infixed op left right) :=
      .infixed groupedLeft groupedRight tightLeft tightRight
    cases grouped' with
    | prefixed inner' tight' =>
      exact absurd same (grouped.infixed_ne_prefixed (.prefixed inner' tight'))
    | infixed left' right' tightLeft' tightRight' =>
      obtain ⟨sameLeft, rfl, sameRight⟩ :=
        grouped.split_eq (.infixed left' right' tightLeft' tightRight') same
      rw [ihLeft left' sameLeft, ihRight right' sameRight]
    | among inner' others tight' =>
      exact absurd same (grouped.infixed_ne_among (.among inner' others tight'))
    | _ => exact eq_of_links same
  | @among operand items inner others tight ih =>
    cases grouped' with
    | prefixed inner' tight' =>
      exact absurd same (among_ne_prefixed (.among inner others tight))
    | infixed left right tightLeft tightRight =>
      exact absurd same.symm (infixed_ne_among (.infixed left right tightLeft tightRight)
        (.among inner others tight))
    | among inner' others' tight' =>
      obtain ⟨sameOperand, sameItems⟩ := List.append_inj' same rfl
      cases sameItems
      rw [ih inner' sameOperand]
    | _ => exact eq_of_links same
  | _ => exact (eq_of_links same.symm).symm

end

end Phrase

end EdmQuery
