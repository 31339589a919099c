import LatticeKinetics.Fortran.Expr
import LatticeKinetics.Proofs.SourceTokens

/-! Integer expressions read back from their text. Products bind closer than sums and both group
from the left, so a rendered expression is read as itself when its sums stand in brackets wherever a
factor or a term is wanted. -/

namespace LatticeKinetics.Fortran

open Text

inductive Bracket where
  | group
  | firstArgument
  | secondArgument (first : IntExpr)

/-- What waits for the value of a bracket: the sum and the product of which it is the next part. -/
structure Waiting where
  sum : IntExpr → IntExpr
  product : IntExpr → IntExpr
  bracket : Bracket

def IntExpr.ofWord (text : String) : IntExpr :=
  match readNat? text.toList with
  | some value => .literal value
  | none => .named text

mutual

/-- Read where an operand must come, as the next part of a product and that of a sum. -/
def readOperand (sum product : IntExpr → IntExpr) (stack : List Waiting) :
    List Token → Option IntExpr
  | .sign '(' :: ts => readOperand id id (⟨sum, product, .group⟩ :: stack) ts
  | .word "modulo" :: .sign '(' :: ts =>
    readOperand id id (⟨sum, product, .firstArgument⟩ :: stack) ts
  | .word array :: .sign '(' :: .word position :: .sign ')' :: ts =>
    match readNat? position.toList with
    | some k => readOperator sum (product (.component array k)) stack ts
    | none => none
  | .word text :: ts => readOperator sum (product (.ofWord text)) stack ts
  | _ => none

/-- Read behind an operand, which has made `term` of the product. -/
def readOperator (sum : IntExpr → IntExpr) (term : IntExpr) (stack : List Waiting) :
    List Token → Option IntExpr
  | [] => if stack.isEmpty then some (sum term) else none
  | .sign '*' :: ts => readOperand sum (.multiply term) stack ts
  | .sign '/' :: ts => readOperand sum (.divide term) stack ts
  | .sign '+' :: ts => readOperand (.add (sum term)) id stack ts
  | .sign '-' :: ts => readOperand (.subtract (sum term)) id stack ts
  | .sign ',' :: ts =>
    match stack with
    | ⟨outer, product, .firstArgument⟩ :: stack =>
      readOperand id id (⟨outer, product, .secondArgument (sum term)⟩ :: stack) ts
    | _ => none
  | .sign ')' :: ts =>
    match stack with
    | ⟨outer, product, .group⟩ :: stack =>
      readOperator outer (product (.parens (sum term))) stack ts
    | ⟨outer, product, .secondArgument first⟩ :: stack =>
      readOperator outer (product (.modulo first (sum term))) stack ts
    | _ => none
  | _ => none

end

def readExpr (ts : List Token) : Option IntExpr :=
  readOperand id id [] ts

theorem tokens_component {array : String} (h : isIdentifier array = true) (position : Nat) :
    tokens (array ++ "(" ++ toString position ++ ")") =
      [.word array, .sign '(', .word (toString position), .sign ')'] := by
  rw [tokens_append_of_opensApart rfl, tokens_append_between rfl rfl rfl, tokens_identifier h,
    tokens_toString]
  rfl

section Reading

variable {sum product : IntExpr → IntExpr} {stack : List Waiting} {ts : List Token}

theorem readOperand_word {text : String} (h : ts.head? ≠ some (.sign '(')) :
    readOperand sum product stack (.word text :: ts) =
      readOperator sum (product (.ofWord text)) stack ts := by
  cases ts with
  | nil => simp [readOperand]
  | cons t ts =>
    simp only [List.head?_cons, ne_eq, Option.some.injEq] at h
    simp [readOperand, h]

theorem readOperand_component {array position : String} (harray : array ≠ "modulo") {k : Nat}
    (hk : readNat? position.toList = some k) :
    readOperand sum product stack
        (.word array :: .sign '(' :: .word position :: .sign ')' :: ts) =
      readOperator sum (product (.component array k)) stack ts := by
  simp [readOperand, hk]

theorem readOperator_sum (hmul : ts.head? ≠ some (.sign '*')) (hdiv : ts.head? ≠ some (.sign '/'))
    (term : IntExpr) :
    readOperator sum term stack ts = readOperator id (sum term) stack ts := by
  fun_cases readOperator sum term stack ts <;> simp_all [readOperator]

end Reading

namespace IntExpr

def IsFactor (e : IntExpr) : Prop :=
  ∀ sum product stack ts, ts.head? ≠ some (.sign '(') →
    readOperand sum product stack (tokens e.render ++ ts) = readOperator sum (product e) stack ts

def IsTerm (e : IntExpr) : Prop :=
  ∀ sum stack ts, ts.head? ≠ some (.sign '(') →
    readOperand sum id stack (tokens e.render ++ ts) = readOperator sum e stack ts

/-- Its text is read as one sum where a sum begins and no further factor follows. -/
def IsSum (e : IntExpr) : Prop :=
  ∀ stack ts, ts.head? ≠ some (.sign '(') → ts.head? ≠ some (.sign '*') →
    ts.head? ≠ some (.sign '/') →
    readOperand id id stack (tokens e.render ++ ts) = readOperator id e stack ts

theorem IsFactor.isTerm {e : IntExpr} (h : e.IsFactor) : e.IsTerm :=
  fun sum stack ts => h sum id stack ts

theorem IsTerm.isSum {e : IntExpr} (h : e.IsTerm) : e.IsSum :=
  fun stack ts hbracket _ _ => h id stack ts hbracket

theorem IsSum.readExpr_eq {e : IntExpr} (h : e.IsSum) : readExpr (tokens e.render) = some e := by
  have hread := h [] [] (by simp) (by simp) (by simp)
  rw [List.append_nil] at hread
  rw [readExpr, hread, readOperator]
  rfl

example : readExpr (tokens "a - b*c/(d + 2)") =
    some (.subtract (.named "a") (.divide (.multiply (.named "b") (.named "c"))
      (.parens (.add (.named "d") (.literal 2))))) := by
  decide +kernel

theorem isFactor_literal (value : Nat) : (literal value).IsFactor := by
  intro sum product stack ts hts
  change readOperand _ _ _ (tokens (toString value) ++ ts) = _
  rw [tokens_toString, List.singleton_append, readOperand_word hts, ofWord, readNat?_toString]

theorem isFactor_named {name : String} (h : isIdentifier name = true) : (named name).IsFactor := by
  intro sum product stack ts hts
  change readOperand _ _ _ (tokens name ++ ts) = _
  rw [tokens_identifier h, List.singleton_append, readOperand_word hts, ofWord,
    readNat?_identifier h]

theorem isFactor_component {array : String} (h : isIdentifier array = true)
    (hne : array ≠ "modulo") (position : Nat) : (component array position).IsFactor := by
  intro sum product stack ts _
  rw [show tokens (component array position).render = _ from tokens_component h position]
  exact readOperand_component hne (readNat?_toString position)

theorem isFactor_parens {inner : IntExpr} (h : inner.IsSum) : (parens inner).IsFactor := by
  intro sum product stack ts _
  have htokens : tokens (parens inner).render =
      .sign '(' :: (tokens inner.render ++ [.sign ')']) := by
    change tokens ("(" ++ inner.render ++ ")") = _
    rw [tokens_append_of_opensApart (by decide), tokens_append_of_closesApart (by decide)]
    rfl
  rw [htokens, List.cons_append, readOperand, List.append_assoc,
    h _ _ (by simp) (by simp) (by simp)]
  simp [readOperator]

theorem isFactor_modulo {left right : IntExpr} (hl : left.IsSum) (hr : right.IsSum) :
    (modulo left right).IsFactor := by
  intro sum product stack ts _
  have htokens : tokens (modulo left right).render =
      .word "modulo" :: .sign '(' ::
        (tokens left.render ++ .sign ',' :: (tokens right.render ++ [.sign ')'])) := by
    change tokens ("modulo(" ++ left.render ++ ", " ++ right.render ++ ")") = _
    rw [tokens_append_of_opensApart (by decide), tokens_between (by decide) (by decide),
      tokens_append_of_closesApart (by decide), List.append_assoc, List.append_assoc]
    rfl
  rw [htokens, List.cons_append, List.cons_append, readOperand, List.append_assoc,
    hl _ _ (by simp) (by simp) (by simp), List.cons_append, readOperator, List.append_assoc,
    hr _ _ (by simp) (by simp) (by simp), List.singleton_append, readOperator]
  rfl

section Join

variable {join : IntExpr → IntExpr → IntExpr} {left right : IntExpr}

/-- A sign between factors that the reader takes for the join makes one term of them. -/
theorem isTerm_join (sign : Char) (hsign : sign ≠ '(')
    (htokens : ∀ left right, tokens (join left right).render =
      tokens left.render ++ .sign sign :: tokens right.render)
    (hread : ∀ sum term stack ts, readOperator sum term stack (.sign sign :: ts) =
      readOperand sum (join term) stack ts)
    (hl : left.IsTerm) (hr : right.IsFactor) : (join left right).IsTerm := by
  intro sum stack ts hts
  rw [htokens, List.append_assoc, hl _ _ _ (by simpa using hsign), List.cons_append, hread,
    hr _ _ _ _ hts]

/-- A sign between terms ends the sum to its left, which no factor may extend. -/
theorem isSum_join (sign : Char) (hsign : sign ∉ ['(', '*', '/'])
    (htokens : ∀ left right, tokens (join left right).render =
      tokens left.render ++ .sign sign :: tokens right.render)
    (hread : ∀ sum term stack ts, readOperator sum term stack (.sign sign :: ts) =
      readOperand (join (sum term)) id stack ts)
    (hl : left.IsSum) (hr : right.IsTerm) : (join left right).IsSum := by
  intro stack ts hts hmul hdiv
  simp only [List.mem_cons, List.not_mem_nil, or_false, not_or] at hsign
  rw [htokens, List.append_assoc, hl _ _ (by simp [hsign]) (by simp [hsign]) (by simp [hsign]),
    List.cons_append, hread, hr _ _ _ hts, readOperator_sum hmul hdiv]
  rfl

theorem isTerm_multiply (hl : left.IsTerm) (hr : right.IsFactor) : (multiply left right).IsTerm :=
  isTerm_join '*' (by decide) (fun _ _ => tokens_append_between rfl rfl rfl _ _)
    (fun _ _ _ _ => by rw [readOperator]) hl hr

theorem isTerm_divide (hl : left.IsTerm) (hr : right.IsFactor) : (divide left right).IsTerm :=
  isTerm_join '/' (by decide) (fun _ _ => tokens_append_between rfl rfl rfl _ _)
    (fun _ _ _ _ => by rw [readOperator]) hl hr

theorem isSum_add (hl : left.IsSum) (hr : right.IsTerm) : (add left right).IsSum :=
  isSum_join '+' (by decide) (fun _ _ => tokens_append_between rfl rfl rfl _ _)
    (fun _ _ _ _ => by rw [readOperator]) hl hr

theorem isSum_subtract (hl : left.IsSum) (hr : right.IsTerm) : (subtract left right).IsSum :=
  isSum_join '-' (by decide) (fun _ _ => tokens_append_between rfl rfl rfl _ _)
    (fun _ _ _ _ => by rw [readOperator]) hl hr

end Join

theorem chain_induction {join : IntExpr → IntExpr → IntExpr} {P Q : IntExpr → Prop}
    (hjoin : ∀ left right, P left → Q right → P (join left right)) {first : IntExpr}
    {rest : List IntExpr} (hfirst : P first) (hrest : ∀ e ∈ rest, Q e) :
    P (chain join first rest) := by
  induction rest generalizing first with
  | nil => exact hfirst
  | cons e rest ih =>
    apply ih (hjoin first e hfirst (hrest e List.mem_cons_self))
    intro e' he'
    exact hrest e' (List.mem_cons_of_mem _ he')

end IntExpr

end LatticeKinetics.Fortran
