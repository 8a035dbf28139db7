import RecordGate.Proofs.Filter.SqlOperands
import RecordGate.Proofs.Filter.SqlText

/-!
# Clauses and their predicates

The predicate of a clause is read back from its text and its parameters. The text alone says all but
the operands, for which it has placeholders that are numbered in the order of the leaves. A name that
looks like a placeholder or like a part of a condition is quoted and stays what it is.
-/

namespace RecordGate

/-- What a leaf compares with or searches for. -/
def Predicate.operand? : Predicate → Option Value
  | .compare _ _ value => some value
  | .contains _ term => some (.text term)
  | _ => none

/-- Two predicates that differ in their operands and search terms at most. -/
inductive Predicate.Alike : Predicate → Predicate → Prop
  | matchAll : Alike .matchAll .matchAll
  | compare (field : String) (op : ComparisonOp) (value other : Value) :
      Alike (.compare field op value) (.compare field op other)
  | contains (field term other : String) : Alike (.contains field term) (.contains field other)
  | and {left right left' right' : Predicate} (hleft : Alike left left')
      (hright : Alike right right') : Alike (.and left right) (.and left' right')
  | or {left right left' right' : Predicate} (hleft : Alike left left')
      (hright : Alike right right') : Alike (.or left right) (.or left' right')

namespace Sql

section Decoding

/-- The operator that a relation stands for. -/
def operatorOf : Relation → ComparisonOp
  | .equal => .equals
  | .distinct => .notEquals
  | .greater => .greaterThan
  | .greaterOrEqual => .greaterThanOrEqual
  | .less => .lessThan
  | .lessOrEqual => .lessThanOrEqual

theorem operatorOf_relationOf (op : ComparisonOp) : operatorOf (relationOf op) = op := by
  cases op <;> rfl

/-- The predicate of a condition, with the parameters put in for its placeholders. -/
def Expr.predicate? (params : List Value) : Expr → Option Predicate
  | .true => some .matchAll
  | .relation column rel n => (params[n - 1]?).map (.compare column (operatorOf rel))
  | .position column n =>
      match params[n - 1]? with
      | some (.text term) => some (.contains column term)
      | _ => none
  | .and left right =>
      (left.predicate? params).bind fun l => (right.predicate? params).map (.and l)
  | .or left right =>
      (left.predicate? params).bind fun l => (right.predicate? params).map (.or l)

/-- The predicate that a clause says, given as a text with parameters. -/
def decode? (sql : String) (params : List Value) : Option Predicate :=
  (Expr.read? sql).bind (Expr.predicate? params)

theorem predicate?_exprFrom {p : Predicate} {n : Nat} {params : List Value}
    (hparams : StandsAt (operands p) n params) : (exprFrom n p).predicate? params = some p := by
  induction p generalizing n with
  | matchAll => rfl
  | compare field op value =>
      simp only [exprFrom, Expr.predicate?, hparams.getElem?_eq_some, Option.map_some,
        operatorOf_relationOf]
  | contains field term => simp only [exprFrom, Expr.predicate?, hparams.getElem?_eq_some]
  | and left right ihl ihr =>
      simp only [exprFrom, Expr.predicate?, ihl hparams.left, ihr hparams.right_operands,
        Option.bind_some, Option.map_some]
  | or left right ihl ihr =>
      simp only [exprFrom, Expr.predicate?, ihl hparams.left, ihr hparams.right_operands,
        Option.bind_some, Option.map_some]

theorem decode?_sql_params (p : Predicate) : decode? (render p).sql (render p).params = some p := by
  rw [decode?, Clause.sql, Expr.read?_text, Option.bind_some]
  exact predicate?_exprFrom (standsAt_operands p)

end Decoding

section Placeholders

/-- The placeholders in a text from left to right, where `quoted` says whether the text begins inside
of a name. A doubled quote ends a name and begins it again. -/
def scan (quoted : Bool) : List Char → List (List Char)
  | [] => []
  | c :: s =>
      if c == '"' then scan (!quoted) s
      else if c == '$' && !quoted then (c :: s.takeWhile isDigit) :: scan quoted s
      else scan quoted s

/-- The placeholders of a clause from left to right. What stands in a quoted name is none. -/
def placeholdersOf (sql : String) : List String := (scan false sql.toList).map String.ofList

theorem scan_quote (quoted : Bool) (s : List Char) : scan quoted ('"' :: s) = scan (!quoted) s := rfl

/-- A character that neither quotes a name nor begins a placeholder. -/
def isPlain (c : Char) : Bool := c != '"' && c != '$'

theorem scan_append_of_plain {a : List Char} (h : a.all isPlain = true) (quoted : Bool)
    (s : List Char) : scan quoted (a ++ s) = scan quoted s := by
  induction a with
  | nil => rfl
  | cons c a ih =>
      simp only [List.all_cons, isPlain, Bool.and_eq_true, bne_iff_ne, ne_eq] at h
      obtain ⟨⟨hquote, hsign⟩, hrest⟩ := h
      simp [scan, hquote, hsign, ih hrest]

theorem scan_doubled (name s : List Char) : scan true (doubled name ++ '"' :: s) = scan false s := by
  induction name with
  | nil => rfl
  | cons c name ih =>
      by_cases hc : c = '"'
      · simp [doubled, hc, scan, ih]
      · simp [doubled, hc, scan, ih]

theorem scan_placeholder {s : List Char} (hs : EndsNumber s) (n : Nat) :
    scan false ('$' :: (Nat.toDigits 10 n ++ s)) = (placeholder n).toList :: scan false s := by
  have hdigits : ∀ c ∈ Nat.toDigits 10 n, isDigit c = true := fun c hc => isDigit_of_mem_toDigits hc
  have hplain : (Nat.toDigits 10 n).all isPlain = true := by
    refine List.all_eq_true.mpr fun c hc => ?_
    have hdigit := hdigits c hc
    simp only [isPlain, Bool.and_eq_true, bne_iff_ne, ne_eq]
    constructor
    · rintro rfl
      exact absurd hdigit (by decide)
    · rintro rfl
      exact absurd hdigit (by decide)
  have htext : (placeholder n).toList = '$' :: Nat.toDigits 10 n := by simp [placeholder]
  rw [scan, if_neg (by decide), if_pos (by decide), (takeWhile_isDigit_append hdigits hs).1,
    scan_append_of_plain hplain, htext]

/-- The placeholders of a text that starts with a condition come first. -/
def Scanned (e : Expr) : Prop :=
  ∀ s, EndsNumber s →
    scan false (e.chars ++ s) = e.placeholders.map (fun n => (placeholder n).toList) ++ scan false s

theorem scanned_relation (column : String) (rel : Relation) (n : Nat) :
    Scanned (.relation column rel n) := by
  intro s hs
  have hsymbol : (' ' :: (rel.text.toList ++ [' '])).all isPlain = true := by
    cases rel <;> decide
  have hplain := scan_append_of_plain hsymbol false ('$' :: (Nat.toDigits 10 n ++ s))
  simp only [List.cons_append, List.append_assoc, List.nil_append] at hplain
  simp only [Expr.chars_relation, List.cons_append, List.append_assoc]
  rw [scan_quote, Bool.not_false, scan_doubled, hplain, scan_placeholder hs]
  rfl

theorem scanned_position (column : String) (n : Nat) : Scanned (.position column n) := by
  intro s _
  have hword := scan_append_of_plain (a := ['s', 't', 'r', 'p', 'o', 's', '(']) (by decide) false
  have hcomma := scan_append_of_plain (a := [',', ' ']) (by decide) false
  have hrest := scan_append_of_plain (a := [')', ' ', '>', ' ', '0']) (by decide) false
  have hclose : EndsNumber (')' :: ' ' :: '>' :: ' ' :: '0' :: s) := endsNumber_cons (by decide) _
  simp only [List.cons_append, List.nil_append] at hword hcomma hrest
  simp only [Expr.chars_position, List.cons_append, List.append_assoc, List.nil_append]
  rw [hword, scan_quote, Bool.not_false, scan_doubled, hcomma, scan_placeholder hclose, hrest]
  rfl

theorem scan_joined {left right : Expr} (hleft : Scanned left) (hright : Scanned right)
    {word : List Char} (hword : (' ' :: (word ++ [' '])).all isPlain = true) (s : List Char) :
    scan false (Expr.joined word left right ++ s) =
      (left.placeholders ++ right.placeholders).map (fun n => (placeholder n).toList) ++
        scan false s := by
  have hblank (r : List Char) : EndsNumber (' ' :: r) := endsNumber_cons (by decide) r
  have hclose (r : List Char) : EndsNumber (')' :: r) := endsNumber_cons (by decide) r
  have hplain := scan_append_of_plain hword false (right.chars ++ ')' :: s)
  have hparen (c : Char) (hc : c = '(' ∨ c = ')') (r : List Char) :
      scan false (c :: r) = scan false r := by
    rcases hc with rfl | rfl <;> rfl
  simp only [List.cons_append, List.append_assoc, List.nil_append] at hplain
  simp only [Expr.joined, List.cons_append, List.append_assoc, List.nil_append]
  rw [hparen _ (.inl rfl), hleft _ (hblank _), hplain, hright _ (hclose _), hparen _ (.inr rfl),
    List.map_append, List.append_assoc]

theorem scanned (e : Expr) : Scanned e := by
  induction e with
  | true => exact fun s _ => scan_append_of_plain (by decide) false s
  | relation column rel n => exact scanned_relation column rel n
  | position column n => exact scanned_position column n
  | and left right ihl ihr =>
      intro s _
      rw [Expr.chars_and]
      exact scan_joined ihl ihr (by decide) s
  | or left right ihl ihr =>
      intro s _
      rw [Expr.chars_or]
      exact scan_joined ihl ihr (by decide) s

theorem placeholders_exprFrom (n : Nat) (p : Predicate) :
    (exprFrom n p).placeholders = List.range' (n + 1) p.leafCount := by
  induction p generalizing n with
  | matchAll => rfl
  | compare field op value => rfl
  | contains field term => rfl
  | and left right ihl ihr =>
      have hnext : n + left.leafCount + 1 = n + 1 + left.leafCount := by omega
      rw [exprFrom, Expr.placeholders, ihl, ihr, hnext, List.range'_append_1, Predicate.leafCount_and]
  | or left right ihl ihr =>
      have hnext : n + left.leafCount + 1 = n + 1 + left.leafCount := by omega
      rw [exprFrom, Expr.placeholders, ihl, ihr, hnext, List.range'_append_1, Predicate.leafCount_or]

theorem placeholdersOf_sql (p : Predicate) :
    placeholdersOf (render p).sql = (List.range' 1 p.leafCount).map placeholder := by
  have hscan : scan false (render p).sql.toList =
      (List.range' 1 p.leafCount).map fun n => (placeholder n).toList := by
    have h := scanned (exprFrom 0 p) [] endsNumber_nil
    rwa [placeholders_exprFrom, List.append_nil, scan, List.append_nil] at h
  rw [placeholdersOf, hscan, List.map_map]
  exact List.map_congr_left fun n _ => String.ofList_toList

theorem map_operand?_leaves (p : Predicate) :
    p.leaves.map Predicate.operand? = (operands p).map some := by
  induction p with
  | matchAll => rfl
  | compare field op value => rfl
  | contains field term => rfl
  | and left right ihl ihr => rw [Predicate.leaves, operands, List.map_append, List.map_append, ihl, ihr]
  | or left right ihl ihr => rw [Predicate.leaves, operands, List.map_append, List.map_append, ihl, ihr]

end Placeholders

section Texts

theorem relationOf_injective {op other : ComparisonOp} (h : relationOf op = relationOf other) :
    op = other := by
  rw [← operatorOf_relationOf op, h, operatorOf_relationOf]

theorem leafCount_of_alike {p q : Predicate} (h : p.Alike q) : p.leafCount = q.leafCount := by
  induction h with
  | matchAll => rfl
  | compare field op value other => rfl
  | contains field term other => rfl
  | and _ _ ihl ihr => rw [Predicate.leafCount_and, Predicate.leafCount_and, ihl, ihr]
  | or _ _ ihl ihr => rw [Predicate.leafCount_or, Predicate.leafCount_or, ihl, ihr]

theorem exprFrom_of_alike {p q : Predicate} (h : p.Alike q) (n : Nat) :
    exprFrom n p = exprFrom n q := by
  induction h generalizing n with
  | matchAll => rfl
  | compare field op value other => rfl
  | contains field term other => rfl
  | and hleft _ ihl ihr => rw [exprFrom, exprFrom, ihl, ihr, leafCount_of_alike hleft]
  | or hleft _ ihl ihr => rw [exprFrom, exprFrom, ihl, ihr, leafCount_of_alike hleft]

theorem alike_of_exprFrom {p q : Predicate} {n : Nat} (h : exprFrom n p = exprFrom n q) :
    p.Alike q := by
  induction p generalizing q n with
  | matchAll =>
      cases q <;> simp only [exprFrom, reduceCtorEq] at h
      exact .matchAll
  | compare field op value =>
      cases q <;> simp only [exprFrom, reduceCtorEq, Expr.relation.injEq] at h
      obtain ⟨rfl, hop, -⟩ := h
      rw [relationOf_injective hop]
      exact .compare field _ value _
  | contains field term =>
      cases q <;> simp only [exprFrom, reduceCtorEq, Expr.position.injEq] at h
      obtain ⟨rfl, -⟩ := h
      exact .contains field term _
  | and left right ihl ihr =>
      cases q <;> simp only [exprFrom, reduceCtorEq, Expr.and.injEq] at h
      obtain ⟨hl, hr⟩ := h
      have hleft := ihl hl
      rw [leafCount_of_alike hleft] at hr
      exact .and hleft (ihr hr)
  | or left right ihl ihr =>
      cases q <;> simp only [exprFrom, reduceCtorEq, Expr.or.injEq] at h
      obtain ⟨hl, hr⟩ := h
      have hleft := ihl hl
      rw [leafCount_of_alike hleft] at hr
      exact .or hleft (ihr hr)

theorem alike_iff_sql_eq {p q : Predicate} : p.Alike q ↔ (render p).sql = (render q).sql := by
  constructor
  · intro h
    rw [Clause.sql, Clause.sql, render, render, exprFrom_of_alike h]
  · intro h
    exact alike_of_exprFrom (Expr.text_injective h)

end Texts

section Walk

/-- Writes a predicate from left to right. The operand of a leaf is bound when the leaf is met, and
its placeholder has the number of operands bound by then. -/
def write (bound : List Value) : Predicate → String × List Value
  | .matchAll => ("TRUE", bound)
  | .compare field op value =>
      let bound := bound ++ [value]
      (quoteName field ++ " " ++ (relationOf op).text ++ " " ++ placeholder bound.length, bound)
  | .contains field term =>
      let bound := bound ++ [.text term]
      ("strpos(" ++ quoteName field ++ ", " ++ placeholder bound.length ++ ") > 0", bound)
  | .and left right =>
      let (l, bound) := write bound left
      let (r, bound) := write bound right
      ("(" ++ l ++ " AND " ++ r ++ ")", bound)
  | .or left right =>
      let (l, bound) := write bound left
      let (r, bound) := write bound right
      ("(" ++ l ++ " OR " ++ r ++ ")", bound)

theorem write_eq (bound : List Value) (p : Predicate) :
    write bound p = ((exprFrom bound.length p).text, bound ++ operands p) := by
  induction p generalizing bound with
  | matchAll => simp [write, exprFrom, Expr.text, operands]
  | compare field op value => simp [write, exprFrom, Expr.text, operands]
  | contains field term => simp [write, exprFrom, Expr.text, operands]
  | and left right ihl ihr =>
      simp only [write, ihl, ihr, exprFrom, Expr.text, operands, List.length_append,
        length_operands, List.append_assoc]
  | or left right ihl ihr =>
      simp only [write, ihl, ihr, exprFrom, Expr.text, operands, List.length_append,
        length_operands, List.append_assoc]

end Walk

/-- A predicate is read back from its clause, so that no other predicate has the same clause. The
placeholders of the clause are numbered from one on, as many as there are leaves, and the parameters
are what the leaves compare with or search for, in the order of a walk that binds them one by one.
Predicates have the same text when they differ in nothing but that. -/
theorem decode?_render (p : Predicate) :
    decode? (render p).sql (render p).params = some p ∧
      (∀ q, (render q).sql = (render p).sql → (render q).params = (render p).params → q = p) ∧
      placeholdersOf (render p).sql = (List.range' 1 p.leafCount).map placeholder ∧
      (render p).params.length = p.leafCount ∧
      p.leaves.map Predicate.operand? = (render p).params.map some ∧
      (∀ q, p.Alike q ↔ (render p).sql = (render q).sql) ∧
      write [] p = ((render p).sql, (render p).params) := by
  refine ⟨decode?_sql_params p, ?_, placeholdersOf_sql p, length_operands p, map_operand?_leaves p,
    fun q => alike_iff_sql_eq, write_eq [] p⟩
  intro q hsql hparams
  have hdecoded := decode?_sql_params q
  rw [hsql, hparams, decode?_sql_params p, Option.some.injEq] at hdecoded
  exact hdecoded.symm

/-- A name that looks like a placeholder or a join is no part of the condition, and neither is what
it is compared with. -/
theorem decode?_render_ofQuotedNames :
    ∃ p q : Predicate, (render p).sql =
        "(\"a\"\" = $9 AND \"\"b\" IS DISTINCT FROM $1 AND (TRUE OR strpos(\"$1)\", $2) > 0))" ∧
      (render p).params = [.text "$2", .text "\""] ∧
      decode? (render p).sql (render p).params = some p ∧
      placeholdersOf (render p).sql = ["$1", "$2"] ∧
      (render p).sql = (render q).sql ∧ (render q).params = [.null, .text " AND "] := by
  let p : Predicate := .and (.compare "a\" = $9 AND \"b" .notEquals (.text "$2"))
    (.or .matchAll (.contains "$1)" "\""))
  let q : Predicate := .and (.compare "a\" = $9 AND \"b" .notEquals .null)
    (.or .matchAll (.contains "$1)" " AND "))
  have hpq : p.Alike q := .and (.compare _ _ _ _) (.or .matchAll (.contains _ _ _))
  obtain ⟨hdecoded, -, hplaceholders, -, -, halike, -⟩ := decode?_render p
  exact ⟨p, q, rfl, rfl, hdecoded, hplaceholders, (halike q).mp hpq, rfl⟩

end Sql

end RecordGate
