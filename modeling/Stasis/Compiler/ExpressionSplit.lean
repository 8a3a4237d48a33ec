import Mathlib.Data.Int.Notation
import Mathlib.Data.List.TakeWhile
import Mathlib.Data.Nat.Basic
import Mathlib.Order.Basic
import Mathlib.Tactic.Tauto
import Stasis.Compiler.Identity

namespace Stasis.Compiler

open List

/-- What the scan keeps: the open brackets and the candidate's index, operator and width. -/
structure Scan where
  paren : ℤ := 0
  bracket : ℤ := 0
  angle : ℤ := 0
  candidate : Option (ℕ × Char × ℕ) := none

def splitPrecedence (byte : Char) : ℕ :=
  if byte ∈ ['<', '>', '='] then 1 else if byte ∈ ['+', '-'] then 2 else 3

/-- The loop over the text; `skip` is the second half of an operator. -/
def Scan.run (s : Scan) (index : ℕ) (previous : Option Char) (skip : Bool) : Text → Scan
  | [] => s
  | byte :: rest =>
    let top := s.paren = 0 ∧ s.bracket = 0
    let next (s : Scan) := s.run (index + 1) (some byte) false rest
    if skip then next s
    else if byte = '(' then next { s with paren := s.paren + 1 }
    else if byte = ')' then next { s with paren := s.paren - 1 }
    else if byte = '[' then next { s with bracket := s.bracket + 1 }
    else if byte = ']' then next { s with bracket := s.bracket - 1 }
    else if byte = '<' ∧ top then next { s with angle := s.angle + 1 }
    else if byte = '>' ∧ top ∧ 0 < s.angle then next { s with angle := s.angle - 1 }
    else if byte ∈ ['+', '-', '*', '/', '%', '<', '>', '='] ∧ top ∧ s.angle = 0 ∧
        previous.any (· ∉ ['(', '[', ',', '+', '-', '*', '/', '%']) then
      let width := if byte = '=' ∧ rest.head? = some '=' then 2 else 1
      -- the precedence is compared with the width of the candidate
      let better := s.candidate.all fun (_, _, old) => splitPrecedence byte ≤ old
      Scan.run { s with candidate := if better then some (index, byte, width) else s.candidate }
        (index + 1) (some byte) (width = 2) rest
    else next s

def trim (text : Text) : Text :=
  ((text.dropWhile Char.isWhitespace).reverse.dropWhile Char.isWhitespace).reverse

def splitBinaryExpression (source : Text) : Option (Text × Char × Text) := do
  let (index, operator, width) ← (Scan.run {} 0 none false source).candidate
  let lhs := trim (source.take index)
  let rhs := trim (source.drop (index + width))
  if lhs ≠ [] ∧ rhs ≠ [] then some (lhs, operator, rhs) else none

inductive Token
  | operand (text : Text)
  | operator (op : Char)
  | lparen
  | rparen
deriving DecidableEq

inductive Tree
  | operand (text : Text)
  | negate (tree : Tree)
  | binary (lhs : Tree) (op : Char) (rhs : Tree)
deriving DecidableEq

def Tree.intoValue : Tree → Option Tree
  | binary _ '=' _ => none
  | tree => some tree

def operatorText (op : Char) : Text := if op = '=' then ['=', '='] else [op]

def infixPrecedence (op : Char) : ℕ :=
  if op = '=' then 65 else if op ∈ ['+', '-'] then 90 else 100

mutual

def parsePrecedence : ℕ → ℕ → List Token → Option (Tree × List Token)
  | 0, _, _ => none
  | fuel + 1, least, tokens => do
    let (lhs, rest) ← parsePrimary fuel tokens
    climb fuel least lhs rest

def climb : ℕ → ℕ → Tree → List Token → Option (Tree × List Token)
  | 0, _, _, _ => none
  | fuel + 1, least, lhs, .operator op :: rest =>
    if infixPrecedence op < least then some (lhs, .operator op :: rest)
    else do
      let (rhs, rest) ← parsePrecedence fuel (infixPrecedence op + 1) rest
      if op ≠ '=' then
        let _ ← lhs.intoValue
        let _ ← rhs.intoValue
      climb fuel least (.binary lhs op rhs) rest
  | _ + 1, _, lhs, rest => some (lhs, rest)

def parsePrimary : ℕ → List Token → Option (Tree × List Token)
  | _ + 1, .operand text :: rest => some (.operand text, rest)
  | fuel + 1, .operator '-' :: rest => do
    let (operand, rest) ← parsePrecedence fuel 110 rest
    some (.negate (← operand.intoValue), rest)
  | fuel + 1, .operator '+' :: rest => parsePrecedence fuel 110 rest
  | fuel + 1, .lparen :: rest =>
    match parsePrecedence fuel 0 rest with
    | some (tree, .rparen :: rest) => some (tree, rest)
    | _ => none
  | _, _ => none

end

def Plain (text : Text) : Prop :=
  ∀ c ∈ text, c ∉ ['(', ')', '[', ']', '<', '>', ',', '+', '-', '*', '/', '%', '=']

def Blank (text : Text) : Prop := ∀ c ∈ text, c.isWhitespace = true

/-- An expression as it is written, with the blanks around its parts. -/
inductive Expression
  | operand (text : Text)
  | group (before : Text) (inner : Expression) (after : Text)
  | sign (before : Text) (op : Char) (inner : Expression)
  | binary (lhs : Expression) (op : Char) (rhs : Expression)

namespace Expression

def render : Expression → Text
  | operand text => text
  | group before inner after => before ++ '(' :: (inner.render ++ ')' :: after)
  | sign before op inner => before ++ op :: inner.render
  | binary lhs op rhs => lhs.render ++ (operatorText op ++ rhs.render)

def tokens : Expression → List Token
  | operand text => [.operand (trim text)]
  | group _ inner _ => .lparen :: (inner.tokens ++ [.rparen])
  | sign _ op inner => .operator op :: inner.tokens
  | binary lhs op rhs => lhs.tokens ++ .operator op :: rhs.tokens

def tree : Expression → Tree
  | operand text => .operand (trim text)
  | group _ inner _ => inner.tree
  | sign _ op inner => if op = '-' then .negate inner.tree else inner.tree
  | binary lhs op rhs => .binary lhs.tree op rhs.tree

def IsValue (e : Expression) : Prop := e.tree.intoValue = some e.tree

/-- The expressions that stand, without parentheses around them, where the parser asks for
operators of at least the precedence `level`. -/
def Fits (level : ℕ) : Expression → Prop
  | operand text => Plain text ∧ ¬ Blank text
  | group before inner after => Blank before ∧ inner.Fits 0 ∧ Blank after
  | sign before op inner =>
    Blank before ∧ op ∈ ['+', '-'] ∧ inner.Fits 110 ∧ (op = '-' → inner.IsValue)
  | binary lhs op rhs =>
    op ∈ ['+', '-', '*', '/', '%', '='] ∧ level ≤ infixPrecedence op ∧
      lhs.Fits (infixPrecedence op) ∧ rhs.Fits (infixPrecedence op + 1) ∧
      (op ≠ '=' → lhs.IsValue ∧ rhs.IsValue)

def root : Expression → Option (Text × Char × Text)
  | binary lhs op rhs => some (trim lhs.render, op, trim rhs.render)
  | _ => none

/-- The scan takes an operator after `previous` for a binary one. -/
def binaryAfter (previous : Option Char) : Bool :=
  previous.any (· ∉ ['(', '[', ',', '+', '-', '*', '/', '%'])

lemma binaryAfter_iff (previous : Option Char) : binaryAfter previous = true ↔
    ∃ last, previous = some last ∧ last ∉ ['(', '[', ',', '+', '-', '*', '/', '%'] := by
  cases previous <;> simp [binaryAfter]

/-- The operators outside parentheses that the scan takes for binary ones: those that are,
and the signs that follow a blank or `==`. -/
def marks : Expression → ℕ → Option Char → List (ℕ × Char)
  | operand _, _, _ | group _ _ _, _, _ => []
  | sign before op inner, index, previous =>
    (if binaryAfter (before.getLast?.or previous) then [(index + before.length, op)] else []) ++
      inner.marks (index + before.length + 1) (some op)
  | binary lhs op rhs, index, previous =>
    lhs.marks index previous ++ (index + lhs.render.length, op) ::
      rhs.marks (index + lhs.render.length + (operatorText op).length) (some op)

end Expression

lemma infixPrecedence_lt (op : Char) : infixPrecedence op < 110 := by
  unfold infixPrecedence
  split_ifs <;> decide

/-- The tokens continue with no operator that binds stronger than `level`. -/
def Stops (level : ℕ) (rest : List Token) : Prop :=
  ∀ op tail, rest = .operator op :: tail → infixPrecedence op ≤ level

lemma climb_of_stops (h : Stops level rest) (hlt : level < least) (fuel : ℕ) (tree : Tree) :
    climb (fuel + 1) least tree rest = some (tree, rest) := by
  rcases rest with _ | ⟨token, tail⟩
  · rfl
  cases token with
  | operator op => rw [climb, if_pos (by have := h op tail rfl; omega)]
  | _ => rfl

lemma Expression.parsePrecedence_eq (e : Expression) : ∃ n m, ∀ fuel least level rest,
    least ≤ level → e.Fits level → Stops level rest →
    parsePrecedence (fuel + n + 1) least (e.tokens ++ rest) =
      climb (fuel + m + 1) least e.tree rest := by
  induction e with
  | operand text => exact ⟨1, 0, fun fuel least level rest _ _ _ => rfl⟩
  | group before inner after ih =>
    obtain ⟨n, m, ih⟩ := ih
    refine ⟨n + 2, n + 1, fun fuel least level rest _ hfits _ => ?_⟩
    have hinner := ih fuel 0 0 (.rparen :: rest) le_rfl hfits.2.1 nofun
    rw [climb] at hinner
    · simp only [tokens, cons_append, append_assoc, nil_append]
      rw [show fuel + (n + 2) + 1 = fuel + n + 1 + 1 + 1 from rfl, parsePrecedence, parsePrimary,
        hinner]
      rfl
    · nofun
  | sign before op inner ih =>
    obtain ⟨n, m, ih⟩ := ih
    refine ⟨n + 2, n + 1, fun fuel least level rest _ hfits _ => ?_⟩
    obtain ⟨-, hop, hoperand, hvalue⟩ := hfits
    have hstops : Stops 109 rest := fun op _ _ => Nat.le_of_lt_succ (infixPrecedence_lt op)
    have hinner := ih fuel 110 110 rest le_rfl hoperand fun op tail h =>
      (hstops op tail h).trans (by decide)
    rw [climb_of_stops hstops (by decide)] at hinner
    rw [show fuel + (n + 2) + 1 = fuel + n + 1 + 1 + 1 from rfl, tokens, cons_append,
      parsePrecedence]
    simp only [mem_cons, not_mem_nil, or_false] at hop
    rcases hop with rfl | rfl
    · rw [parsePrimary, hinner]
      rfl
    · have hnegated : inner.tree.intoValue = some inner.tree := hvalue rfl
      rw [parsePrimary, hinner]
      simp only [Option.bind_eq_bind, Option.bind_some, hnegated]
      rfl
  | binary lhs op rhs ihl ihr =>
    obtain ⟨n, m, ihl⟩ := ihl
    obtain ⟨n', m', ihr⟩ := ihr
    refine ⟨n' + 1 + n, n' + m, fun fuel least level rest hleast hfits hrest => ?_⟩
    obtain ⟨-, hlevel, hlhs, hrhs, hvalues⟩ := hfits
    have hstops : Stops (infixPrecedence op) rest := fun op' tail h =>
      (hrest op' tail h).trans hlevel
    have hfirst := ihl (fuel + n' + 1) least (infixPrecedence op)
      (.operator op :: (rhs.tokens ++ rest)) (hleast.trans hlevel) hlhs (by
        rintro _ _ ⟨⟩
        exact le_rfl)
    have hsecond := ihr (fuel + m) (infixPrecedence op + 1) (infixPrecedence op + 1) rest le_rfl
      hrhs fun op' tail h => (hstops op' tail h).trans (Nat.le_succ _)
    rw [climb_of_stops hstops (Nat.lt_succ_self _)] at hsecond
    rw [tokens, append_assoc, cons_append, ← Nat.add_assoc, ← Nat.add_assoc, hfirst, climb,
      if_neg (by omega), show fuel + n' + 1 + m = fuel + m + n' + 1 by omega, hsecond]
    simp only [Option.bind_eq_bind, Option.bind_some]
    rw [show fuel + m + n' + 1 = fuel + (n' + m) + 1 by omega]
    by_cases hop : op = '='
    · rw [if_neg (not_not.mpr hop)]
      rfl
    · obtain ⟨hl, hr⟩ := hvalues hop
      unfold IsValue at hl hr
      simp [hop, hl, hr, tree]

lemma Expression.parse_tokens (e : Expression) (h : e.Fits 0) :
    ∃ enough, ∀ fuel, enough ≤ fuel → parsePrecedence fuel 0 e.tokens = some (e.tree, []) := by
  obtain ⟨n, m, hparse⟩ := e.parsePrecedence_eq
  refine ⟨n + 1, fun fuel hfuel => ?_⟩
  obtain ⟨extra, rfl⟩ := Nat.exists_eq_add_of_le' hfuel
  have hall := hparse extra 0 0 [] le_rfl h nofun
  rwa [append_nil] at hall

lemma Scan.run_plain (hplain : Plain text) (s : Scan) :
    s.run index previous false (text ++ rest) =
      s.run (index + text.length) (text.getLast?.or previous) false rest := by
  induction text generalizing index previous with
  | nil => rfl
  | cons c text ih =>
    have hc := hplain c (.head _)
    have htext : Plain text := fun d hd => hplain d (.tail _ hd)
    simp only [mem_cons, not_mem_nil, or_false, not_or] at hc
    have hstep : s.run index previous false (c :: (text ++ rest)) =
        s.run (index + 1) (some c) false (text ++ rest) := by
      rw [run]
      simp [hc]
    rw [cons_append, hstep, ih htext, getLast?_cons, length_cons, Nat.add_right_comm, Nat.add_assoc]
    cases text.getLast? <;> rfl

lemma Blank.plain (h : Blank text) : Plain text := by
  intro c hc hmem
  have hblank := h c hc
  simp only [mem_cons, not_mem_nil, or_false] at hmem
  rcases hmem with rfl | rfl | rfl | rfl | rfl | rfl | rfl | rfl | rfl | rfl | rfl | rfl | rfl <;>
    exact absurd hblank (by decide)

lemma operator_of_sign (h : op ∈ ['+', '-']) : op ∈ ['+', '-', '*', '/', '%', '='] := by
  simp only [mem_cons, not_mem_nil, or_false] at h ⊢
  tauto

lemma operatorText_of_sign (h : op ∈ ['+', '-']) : operatorText op = [op] := by
  simp only [mem_cons, not_mem_nil, or_false] at h
  rcases h with rfl | rfl <;> rfl

lemma getLast?_operatorText (op : Char) : (operatorText op).getLast? = some op := by
  unfold operatorText
  split_ifs with h
  · rw [h]
    rfl
  · rfl

lemma Scan.run_operator_inside {s : Scan} (hs : 0 < s.paren)
    (hop : op ∈ ['+', '-', '*', '/', '%', '=']) :
    s.run index previous false (op :: rest) = s.run (index + 1) (some op) false rest := by
  have hne : s.paren ≠ 0 := by omega
  simp only [mem_cons, not_mem_nil, or_false] at hop
  rcases hop with rfl | rfl | rfl | rfl | rfl | rfl <;> simp [run, hne]

lemma Scan.run_lparen (s : Scan) : s.run index previous false ('(' :: rest) =
    { s with paren := s.paren + 1 }.run (index + 1) (some '(') false rest := by
  simp [run]

lemma Scan.run_rparen (s : Scan) : s.run index previous false (')' :: rest) =
    { s with paren := s.paren - 1 }.run (index + 1) (some ')') false rest := by
  simp [run]

lemma Scan.run_operatorText_inside {s : Scan} (hs : 0 < s.paren)
    (hop : op ∈ ['+', '-', '*', '/', '%', '=']) :
    s.run index previous false (operatorText op ++ rest) =
      s.run (index + (operatorText op).length) (some op) false rest := by
  unfold operatorText
  split_ifs with heq
  · subst heq
    simp only [cons_append, nil_append]
    rw [run_operator_inside hs (by decide), run_operator_inside hs (by decide)]
    rfl
  · exact run_operator_inside hs hop

lemma Expression.run_inside (e : Expression) {s : Scan} (hs : 0 < s.paren) (h : e.Fits level) :
    s.run index previous false (e.render ++ rest) =
      s.run (index + e.render.length) (e.render.getLast?.or previous) false rest := by
  induction e generalizing s level index previous rest with
  | operand text => exact Scan.run_plain h.1 s
  | group before inner after ih =>
    have hinner := fun {index previous rest} => @ih 0 index previous rest
      { s with paren := s.paren + 1 } (by simp only; omega) h.2.1
    simp only [render, append_assoc, cons_append]
    rw [Scan.run_plain h.1.plain, Scan.run_lparen, hinner, Scan.run_rparen,
      Scan.run_plain h.2.2.plain]
    simp only [Int.add_sub_cancel]
    congr 1
    · simp only [length_append, length_cons]
      omega
    · cases hlast : after.getLast? <;> simp [hlast, getLast?_cons]
  | sign before op inner ih =>
    simp only [render, append_assoc, cons_append]
    rw [Scan.run_plain h.1.plain, Scan.run_operator_inside hs (operator_of_sign h.2.1),
      ih hs h.2.2.1]
    congr 1
    · simp only [length_append, length_cons]
      omega
    · cases hlast : inner.render.getLast? <;> simp [hlast, getLast?_cons]
  | binary lhs op rhs ihl ihr =>
    simp only [render, append_assoc]
    rw [ihl hs h.2.2.1, Scan.run_operatorText_inside hs h.1, ihr hs h.2.2.2.1]
    congr 1
    · simp only [length_append]
      omega
    · cases hlast : rhs.render.getLast? <;> simp [hlast, getLast?_operatorText]

/-- What the scan does with an operator it takes for a binary one. -/
def choose (candidate : Option (ℕ × Char × ℕ)) (mark : ℕ × Char) : Option (ℕ × Char × ℕ) :=
  if candidate.all fun (_, _, old) => splitPrecedence mark.2 ≤ old then
    some (mark.1, mark.2, (operatorText mark.2).length)
  else candidate

lemma Scan.run_operatorText (hop : op ∈ ['+', '-', '*', '/', '%', '='])
    (hprevious : Expression.binaryAfter previous = true) :
    Scan.run { candidate := c } index previous false (operatorText op ++ rest) =
      Scan.run { candidate := choose c (index, op) } (index + (operatorText op).length)
        (some op) false rest := by
  obtain ⟨last, rfl, hlast⟩ := (Expression.binaryAfter_iff _).mp hprevious
  simp only [mem_cons, not_mem_nil, or_false, not_or] at hop hlast
  rcases hop with rfl | rfl | rfl | rfl | rfl | rfl <;> simp [run, operatorText, choose, hlast]

lemma Scan.run_sign (hop : op ∈ ['+', '-']) (hprevious : Expression.binaryAfter previous = false) :
    Scan.run { candidate := c } index previous false (op :: rest) =
      Scan.run { candidate := c } (index + 1) (some op) false rest := by
  simp only [mem_cons, not_mem_nil, or_false] at hop
  rcases previous with _ | last
  · rcases hop with rfl | rfl <;> simp [run]
  · have hlast : last ∈ ['(', '[', ',', '+', '-', '*', '/', '%'] := by
      by_contra hmem
      exact absurd ((Expression.binaryAfter_iff _).mpr ⟨last, rfl, hmem⟩) (by simp [hprevious])
    have hskip : (some last).any (· ∉ ['(', '[', ',', '+', '-', '*', '/', '%']) = false := by
      exact decide_eq_false (not_not_intro hlast)
    rcases hop with rfl | rfl <;> simp only [run, hskip] <;> simp

lemma ne_blank_of_operator (h : op ∈ ['+', '-', '*', '/', '%', '=']) :
    op.isWhitespace = false := by
  simp only [mem_cons, not_mem_nil, or_false] at h
  rcases h with rfl | rfl | rfl | rfl | rfl | rfl <;> decide

lemma Plain.binaryAfter (hplain : Plain text) (hne : text ≠ []) :
    Expression.binaryAfter (text.getLast?.or previous) = true := by
  have hlast := hplain _ (getLast_mem hne)
  refine (Expression.binaryAfter_iff _).mpr ⟨text.getLast hne, ?_, ?_⟩
  · rw [getLast?_eq_some_getLast hne, Option.some_or]
  · simp only [mem_cons, not_mem_nil, or_false, not_or] at hlast ⊢
    tauto

lemma Expression.binaryAfter_render (e : Expression) (h : e.Fits level) :
    binaryAfter (e.render.getLast?.or previous) = true := by
  induction e generalizing level previous with
  | operand text => exact h.1.binaryAfter fun hnil => h.2 (by simp [hnil, Blank])
  | group before inner after ih =>
    by_cases hafter : after = []
    · simp [render, hafter, getLast?_cons, binaryAfter]
    · have hlast : binaryAfter (after.getLast?.or previous) = true := h.2.2.plain.binaryAfter hafter
      rw [getLast?_eq_some_getLast hafter] at hlast
      simpa [render, getLast?_cons, getLast?_eq_some_getLast hafter] using hlast
  | sign before op inner ih =>
    have hinner : binaryAfter (inner.render.getLast?.or (some op)) = true := ih h.2.2.1
    cases hlast : inner.render.getLast? <;> rw [hlast] at hinner <;>
      simpa [render, getLast?_cons, hlast] using hinner
  | binary lhs op rhs ihl ihr =>
    have hinner : binaryAfter (rhs.render.getLast?.or (some op)) = true := ihr h.2.2.2.1
    cases hlast : rhs.render.getLast? <;> rw [hlast] at hinner <;>
      simpa [render, getLast?_operatorText, hlast] using hinner

lemma Expression.run_eq (e : Expression) (h : e.Fits level) (c : Option (ℕ × Char × ℕ)) :
    Scan.run { candidate := c } index previous false (e.render ++ rest) =
      Scan.run { candidate := (e.marks index previous).foldl choose c }
        (index + e.render.length) (e.render.getLast?.or previous) false rest := by
  induction e generalizing level index previous c rest with
  | operand text => exact Scan.run_plain h.1 _
  | group before inner after _ =>
    simp only [render, append_assoc, cons_append]
    rw [Scan.run_plain h.1.plain, Scan.run_lparen, inner.run_inside (by simp) h.2.1,
      Scan.run_rparen, Scan.run_plain h.2.2.plain]
    simp only [marks, foldl_nil, Int.add_sub_cancel]
    congr 1
    · simp only [length_append, length_cons]
      omega
    · cases hlast : after.getLast? <;> simp [hlast, getLast?_cons]
  | sign before op inner ih =>
    have hop : op ∈ ['+', '-', '*', '/', '%', '='] := operator_of_sign h.2.1
    have hwidth : operatorText op = [op] := operatorText_of_sign h.2.1
    simp only [render, append_assoc, cons_append, marks, foldl_append]
    rw [Scan.run_plain h.1.plain]
    have hfirst : ∀ rest, Scan.run { candidate := c } (index + before.length)
        (before.getLast?.or previous) false (op :: rest) =
        Scan.run { candidate := (if binaryAfter (before.getLast?.or previous) then
          [(index + before.length, op)] else []).foldl choose c } (index + before.length + 1)
          (some op) false rest := by
      intro rest
      split_ifs with hbinary
      · have hrun : Scan.run { candidate := c } (index + before.length)
            (before.getLast?.or previous) false (operatorText op ++ rest) = _ :=
          Scan.run_operatorText hop hbinary
        rwa [hwidth] at hrun
      · exact Scan.run_sign h.2.1 (Bool.eq_false_iff.mpr hbinary)
    rw [hfirst, ih h.2.2.1]
    congr 1
    · simp only [length_append, length_cons]
      omega
    · cases hlast : inner.render.getLast? <;> simp [hlast, getLast?_cons]
  | binary lhs op rhs ihl ihr =>
    simp only [render, append_assoc, marks, foldl_append, foldl_cons]
    rw [ihl h.2.2.1, Scan.run_operatorText h.1 (lhs.binaryAfter_render h.2.2.1), ihr h.2.2.2.1]
    congr 1
    · simp only [length_append]
      omega
    · cases hlast : rhs.render.getLast? <;> simp [hlast, getLast?_operatorText]

lemma Expression.candidate_eq (e : Expression) (h : e.Fits 0) :
    (Scan.run {} 0 none false e.render).candidate = (e.marks 0 none).foldl choose none := by
  have hrun : Scan.run { candidate := none } 0 none false (e.render ++ []) = _ := e.run_eq h none
  rw [append_nil] at hrun
  rw [hrun]
  rfl

lemma foldl_choose_narrow {marks : List (ℕ × Char)}
    (hmarks : ∀ mark ∈ marks, mark.2 ∈ ['+', '-', '*', '/', '%']) (hop : op ≠ '=') :
    marks.foldl choose (some (index, op, (operatorText op).length)) =
      some (index, op, (operatorText op).length) := by
  induction marks with
  | nil => rfl
  | cons mark marks ih =>
    have hmark := hmarks mark (.head _)
    have hwidth : (operatorText op).length = 1 := by simp [operatorText, hop]
    have hlow : ¬ splitPrecedence mark.2 ≤ 1 := by
      simp only [mem_cons, not_mem_nil, or_false] at hmark
      rcases hmark with h | h | h | h | h <;> rw [h] <;> decide
    rw [foldl_cons, choose, if_neg (by simpa [hwidth] using hlow)]
    exact ih fun m hm => hmarks m (.tail _ hm)

lemma foldl_choose_first {mark : ℕ × Char} {marks : List (ℕ × Char)}
    (hmarks : ∀ m ∈ mark :: marks, m.2 ∈ ['+', '-', '*', '/', '%']) :
    (mark :: marks).foldl choose none =
      some (mark.1, mark.2, (operatorText mark.2).length) := by
  obtain ⟨hmark, hrest⟩ := forall_mem_cons.mp hmarks
  refine foldl_choose_narrow hrest fun h => ?_
  rw [h] at hmark
  exact absurd hmark (by decide)

lemma foldl_choose_wide {marks : List (ℕ × Char)}
    (hmarks : ∀ mark ∈ marks, mark.2 ∈ ['+', '-', '*', '/', '%']) :
    (∀ mark ∈ marks, mark.2 ∉ ['+', '-']) ∧
        marks.foldl choose (some (index, '=', 2)) = some (index, '=', 2) ∨
      ∃ mark ∈ marks, mark.2 ∈ ['+', '-'] ∧ marks.foldl choose (some (index, '=', 2)) =
        some (mark.1, mark.2, (operatorText mark.2).length) := by
  induction marks with
  | nil => exact .inl ⟨nofun, rfl⟩
  | cons mark marks ih =>
    have hmark := hmarks mark (.head _)
    have hrest : ∀ m ∈ marks, m.2 ∈ ['+', '-', '*', '/', '%'] := fun m hm => hmarks m (.tail _ hm)
    rw [foldl_cons]
    by_cases hsum : mark.2 ∈ ['+', '-']
    · refine .inr ⟨mark, .head _, hsum, ?_⟩
      have hlow : splitPrecedence mark.2 ≤ 2 := by
        simp only [mem_cons, not_mem_nil, or_false] at hsum
        rcases hsum with h | h <;> rw [h] <;> decide
      rw [choose, if_pos (by simpa using hlow)]
      refine foldl_choose_narrow hrest fun h => ?_
      rw [h] at hsum
      exact absurd hsum (by decide)
    · have hhigh : ¬ splitPrecedence mark.2 ≤ 2 := by
        simp only [mem_cons, not_mem_nil, or_false] at hmark hsum
        rcases hmark with h | h | h | h | h <;> rw [h] at hsum ⊢ <;>
          simp [splitPrecedence] at hsum ⊢
      rw [choose, if_neg (by simpa using hhigh)]
      rcases ih hrest with ⟨hnone, hfold⟩ | ⟨m, hm, hfold⟩
      · exact .inl ⟨forall_mem_cons.mpr ⟨hsum, hnone⟩, hfold⟩
      · exact .inr ⟨m, .tail _ hm, hfold⟩

lemma one_le_of_foldl_choose {marks : List (ℕ × Char)} {c : Option (ℕ × Char × ℕ)}
    (hc : ∀ x ∈ c, 1 ≤ x.2.2) : ∀ x ∈ marks.foldl choose c, 1 ≤ x.2.2 := by
  induction marks generalizing c with
  | nil => exact hc
  | cons mark marks ih =>
    refine ih fun x hx => ?_
    unfold choose at hx
    split_ifs at hx
    · obtain rfl := Option.some_inj.mp hx
      simp only [operatorText]
      split_ifs <;> simp
    · exact hc x hx

lemma choose_comparison {marks : List (ℕ × Char)} :
    choose (marks.foldl choose none) (index, '=') = some (index, '=', 2) := by
  cases hfold : marks.foldl choose none with
  | none => rfl
  | some kept =>
    have hwidth : 1 ≤ kept.2.2 := one_le_of_foldl_choose (by simp) kept hfold
    exact if_pos (decide_eq_true hwidth)

namespace Expression

lemma narrow_of_mem_marks (e : Expression) (h : e.Fits level) (hlevel : 65 < level) :
    ∀ mark ∈ e.marks index previous, mark.2 ∈ ['+', '-', '*', '/', '%'] := by
  induction e generalizing level index previous with
  | operand | group => nofun
  | sign before op inner ih =>
    intro mark hmark
    rcases mem_append.mp hmark with hmark | hmark
    · split_ifs at hmark
      · obtain rfl := mem_singleton.mp hmark
        have hop := h.2.1
        simp only [mem_cons, not_mem_nil, or_false] at hop ⊢
        tauto
      · cases hmark
    · exact ih h.2.2.1 (by decide) mark hmark
  | binary lhs op rhs ihl ihr =>
    obtain ⟨hop, hle, hlhs, hrhs, -⟩ := h
    have hnarrow : op ∈ ['+', '-', '*', '/', '%'] := by
      have hne : op ≠ '=' := by
        rintro rfl
        exact absurd hle (Nat.not_le.mpr hlevel)
      simp only [mem_cons, not_mem_nil, or_false] at hop ⊢
      tauto
    intro mark hmark
    rcases mem_append.mp hmark with hmark | hmark
    · exact ihl hlhs (by omega) mark hmark
    · rcases mem_cons.mp hmark with rfl | hmark
      · exact hnarrow
      · exact ihr hrhs (by omega) mark hmark

lemma not_blank_render (e : Expression) (h : e.Fits level) : ¬ Blank e.render := by
  induction e generalizing level with
  | operand text => exact h.2
  | group before inner after ih =>
    exact fun hblank => absurd (hblank '(' (by simp [render])) (by decide)
  | sign before op inner ih =>
    exact fun hblank => ih h.2.2.1 fun c hc => hblank c (by simp [render, hc])
  | binary lhs op rhs ihl ihr =>
    exact fun hblank => ihl h.2.2.1 fun c hc => hblank c (by simp [render, hc])

lemma exists_of_mem_marks (e : Expression) (h : e.Fits level) :
    ∀ mark ∈ e.marks index previous, mark.2 ∈ ['+', '-', '*', '/', '%', '='] ∧ ∃ front back,
      e.render = front ++ (operatorText mark.2 ++ back) ∧ mark.1 = index + front.length ∧
      ¬ Blank back := by
  induction e generalizing level index previous with
  | operand | group => nofun
  | sign before op inner ih =>
    intro mark hmark
    rcases mem_append.mp hmark with hmark | hmark
    · split_ifs at hmark
      · obtain rfl := mem_singleton.mp hmark
        exact ⟨operator_of_sign h.2.1, before, inner.render,
          by rw [operatorText_of_sign h.2.1]; rfl, rfl, inner.not_blank_render h.2.2.1⟩
      · cases hmark
    · obtain ⟨hop, front, back, hrender, hindex, hback⟩ := ih h.2.2.1 mark hmark
      refine ⟨hop, before ++ op :: front, back, by simp [render, hrender], ?_, hback⟩
      simp only [length_append, length_cons]
      omega
  | binary lhs op rhs ihl ihr =>
    intro mark hmark
    rcases mem_append.mp hmark with hmark | hmark
    · obtain ⟨hop, front, back, hrender, hindex, hback⟩ := ihl h.2.2.1 mark hmark
      exact ⟨hop, front, back ++ (operatorText op ++ rhs.render), by simp [render, hrender],
        hindex, fun hblank => hback fun c hc => hblank c (mem_append_left _ hc)⟩
    · rcases mem_cons.mp hmark with rfl | hmark
      · exact ⟨h.1, lhs.render, rhs.render, rfl, rfl, rhs.not_blank_render h.2.2.2.1⟩
      · obtain ⟨hop, front, back, hrender, hindex, hback⟩ := ihr h.2.2.2.1 mark hmark
        refine ⟨hop, lhs.render ++ (operatorText op ++ front), back, by simp [render, hrender], ?_,
          hback⟩
        simp only [length_append]
        omega

end Expression

def ink (text : Text) : ℕ := text.countP fun c => !c.isWhitespace

lemma ink_dropWhile (text : Text) : ink (text.dropWhile Char.isWhitespace) = ink text := by
  induction text with
  | nil => rfl
  | cons c text ih =>
    rw [dropWhile_cons]
    split_ifs with hc
    · rw [ih, ink, ink, countP_cons_of_neg (by simp [hc])]
    · rfl

lemma ink_trim (text : Text) : ink (trim text) = ink text := by
  have hreverse : ∀ xs : Text, ink xs.reverse = ink xs := fun xs => countP_reverse
  rw [trim, hreverse, ink_dropWhile, hreverse, ink_dropWhile]

lemma blank_iff (text : Text) : Blank text ↔ ink text = 0 := by
  simp [Blank, ink, countP_eq_zero]

lemma trim_eq_nil_iff (text : Text) : trim text = [] ↔ Blank text := by
  rw [blank_iff]
  refine ⟨fun h => ?_, fun h => ?_⟩
  · rw [← ink_trim, h]
    rfl
  · have hblank : text.dropWhile Char.isWhitespace = [] :=
      dropWhile_eq_nil_iff.mpr ((blank_iff text).mpr h)
    rw [trim, hblank]
    rfl

lemma ink_lt_of_length_lt (hop : op ∈ ['+', '-', '*', '/', '%', '='])
    (htext : front ++ (operatorText op ++ back) = front' ++ back')
    (hlt : front.length < front'.length) : ink front < ink front' := by
  have hwhole : front <+: front' ++ back' := ⟨_, htext⟩
  have hfront : front <+: front' :=
    prefix_of_prefix_length_le hwhole (prefix_append _ _) (Nat.le_of_lt hlt)
  obtain ⟨between, rfl⟩ := hfront
  rcases between with _ | ⟨c, between⟩
  · simp at hlt
  have hhead : operatorText op ++ back = c :: (between ++ back') := by
    simpa using htext
  have hc : c = op := by
    unfold operatorText at hhead
    split_ifs at hhead with heq
    · rw [heq]
      exact (cons.inj hhead).1.symm
    · exact (cons.inj hhead).1.symm
  have hink : ink (front ++ c :: between) = ink front + (ink between + 1) := by
    rw [ink, countP_append, countP_cons_of_pos (by simp [hc, ne_blank_of_operator hop])]
    rfl
  omega

lemma split_of_candidate (htext : text = front ++ (operatorText op ++ back)) (hback : ¬ Blank back)
    (hcandidate : (Scan.run {} 0 none false text).candidate =
      some (front.length, op, (operatorText op).length)) :
    splitBinaryExpression text =
      if trim front = [] then none else some (trim front, op, trim back) := by
  have htake : text.take front.length = front := by rw [htext, take_left]
  have hdrop : text.drop (front.length + (operatorText op).length) = back := by
    rw [htext, ← append_assoc, ← length_append, drop_left]
  have hne : trim back ≠ [] := mt (trim_eq_nil_iff back).mp hback
  simp only [splitBinaryExpression, hcandidate, Option.bind_eq_bind, Option.bind_some, htake, hdrop]
  by_cases hfront : trim front = []
  · rw [if_neg fun h => h.1 hfront, if_pos hfront]
  · rw [if_pos ⟨hfront, hne⟩, if_neg hfront]

lemma split_of_no_candidate (h : (Scan.run {} 0 none false text).candidate = none) :
    splitBinaryExpression text = none := by
  rw [splitBinaryExpression, h]
  rfl

namespace Expression

/-- The scan meets nothing that it takes in place of the root operator: no operator before
one of arithmetic, no sum or difference after a comparison, no second sign after a first. -/
def Settled : Expression → Prop
  | binary lhs op rhs =>
    if op = '=' then
      ∀ mark ∈ rhs.marks (lhs.render.length + 2) (some op), mark.2 ∉ ['+', '-']
    else lhs.marks 0 none = []
  | sign before op inner => before ≠ [] ∨ inner.marks 1 (some op) = []
  | _ => True

lemma split_ne_root {lhs rhs : Expression} {mark : ℕ × Char}
    (hop : op ∈ ['+', '-', '*', '/', '%', '=']) (hmark : mark.2 ∈ ['+', '-', '*', '/', '%', '='])
    (hrender : (binary lhs op rhs).render = front ++ (operatorText mark.2 ++ back))
    (hindex : mark.1 = front.length) (hne : front.length ≠ lhs.render.length)
    (hback : ¬ Blank back)
    (hcandidate : (Scan.run {} 0 none false (binary lhs op rhs).render).candidate =
      some (mark.1, mark.2, (operatorText mark.2).length)) :
    splitBinaryExpression (binary lhs op rhs).render ≠ (binary lhs op rhs).root := by
  rw [hindex] at hcandidate
  rw [split_of_candidate hrender hback hcandidate]
  intro hsame
  split_ifs at hsame with hfront
  · cases hsame
  have htrim : trim front = trim lhs.render := congrArg Prod.fst (Option.some_inj.mp hsame)
  have hink : ink front = ink lhs.render := by rw [← ink_trim, htrim, ink_trim]
  rw [render] at hrender
  rcases Nat.lt_or_gt_of_ne hne with hlt | hlt
  · exact absurd (ink_lt_of_length_lt hmark hrender.symm hlt) (by omega)
  · exact absurd (ink_lt_of_length_lt hop hrender hlt) (by omega)

lemma split_comparison_iff {lhs rhs : Expression} (h : (binary lhs '=' rhs).Fits 0) :
    splitBinaryExpression (binary lhs '=' rhs).render = (binary lhs '=' rhs).root ↔
      (binary lhs '=' rhs).Settled := by
  have hcandidate := (binary lhs '=' rhs).candidate_eq h
  rw [marks, foldl_append, foldl_cons, choose_comparison, Nat.zero_add] at hcandidate
  have hnarrow : ∀ mark ∈ rhs.marks (lhs.render.length + 2) (some '='),
      mark.2 ∈ ['+', '-', '*', '/', '%'] := rhs.narrow_of_mem_marks h.2.2.2.1 (by decide)
  have hrhs := rhs.not_blank_render h.2.2.2.1
  have hlhs : trim lhs.render ≠ [] :=
    mt (trim_eq_nil_iff _).mp (lhs.not_blank_render h.2.2.1)
  change _ = foldl choose _ (rhs.marks (lhs.render.length + 2) (some '=')) at hcandidate
  rw [Settled, if_pos rfl]
  rcases foldl_choose_wide hnarrow with ⟨hnone, hfold⟩ | ⟨mark, hmark, hsum, hfold⟩
  · refine iff_of_true ?_ hnone
    refine (split_of_candidate (show (binary lhs '=' rhs).render = _ from rfl) hrhs
      (hcandidate.trans hfold)).trans ?_
    rw [if_neg hlhs]
    rfl
  · refine iff_of_false ?_ fun hall => hall mark hmark hsum
    obtain ⟨hop, front, back, hrender, hindex, hback⟩ :=
      rhs.exists_of_mem_marks h.2.2.2.1 mark hmark
    have hwhole : (binary lhs '=' rhs).render =
        (lhs.render ++ (operatorText '=' ++ front)) ++ (operatorText mark.2 ++ back) := by
      simp [render, hrender]
    refine split_ne_root h.1 hop hwhole ?_ ?_ hback (hcandidate.trans hfold)
    · rw [hindex, length_append, length_append]
      exact Nat.add_assoc ..
    · simp [operatorText]

lemma split_arithmetic_iff {lhs rhs : Expression} (h : (binary lhs op rhs).Fits 0)
    (hop : op ≠ '=') :
    splitBinaryExpression (binary lhs op rhs).render = (binary lhs op rhs).root ↔
      (binary lhs op rhs).Settled := by
  have hcandidate := (binary lhs op rhs).candidate_eq h
  have hprecedence : 65 < infixPrecedence op := by
    rw [infixPrecedence, if_neg hop]
    split_ifs <;> decide
  have hrhs := rhs.not_blank_render h.2.2.2.1
  have hlhs : trim lhs.render ≠ [] := mt (trim_eq_nil_iff _).mp (lhs.not_blank_render h.2.2.1)
  have hnarrow : ∀ mark ∈ (binary lhs op rhs).marks 0 none, mark.2 ∈ ['+', '-', '*', '/', '%'] :=
    narrow_of_mem_marks _ ⟨h.1, le_rfl, h.2.2⟩ hprecedence
  rw [Settled, if_neg hop]
  rw [marks, Nat.zero_add] at hcandidate hnarrow
  rcases hmarks : lhs.marks 0 none with _ | ⟨mark, others⟩
  · rw [hmarks, nil_append] at hcandidate hnarrow
    rw [foldl_choose_first hnarrow] at hcandidate
    refine iff_of_true ?_ rfl
    refine (split_of_candidate (show (binary lhs op rhs).render = _ from rfl) hrhs
      hcandidate).trans ?_
    rw [if_neg hlhs]
    rfl
  · rw [hmarks, cons_append] at hcandidate hnarrow
    rw [foldl_choose_first hnarrow] at hcandidate
    refine iff_of_false ?_ nofun
    obtain ⟨hmem, front, back, hrender, hindex, hback⟩ := lhs.exists_of_mem_marks h.2.2.1 mark
      (hmarks ▸ .head _ : mark ∈ lhs.marks 0 none)
    have hwhole : (binary lhs op rhs).render =
        front ++ (operatorText mark.2 ++ (back ++ (operatorText op ++ rhs.render))) := by
      simp [render, hrender]
    refine split_ne_root h.1 hmem hwhole (by omega) ?_
      (fun hblank => hback fun c hc => hblank c (mem_append_left _ hc)) hcandidate
    have hpos : 0 < (operatorText mark.2).length := by
      unfold operatorText
      split_ifs <;> simp
    rw [hrender, length_append, length_append]
    omega

lemma split_sign_iff {inner : Expression} (h : (sign before op inner).Fits 0) :
    splitBinaryExpression (sign before op inner).render = none ↔
      (sign before op inner).Settled := by
  have hcandidate := (sign before op inner).candidate_eq h
  have hnarrow : ∀ mark ∈ (sign before op inner).marks 0 none,
      mark.2 ∈ ['+', '-', '*', '/', '%'] :=
    narrow_of_mem_marks _ (show (sign before op inner).Fits 110 from h) (by decide)
  have hmarks : (sign before op inner).marks 0 none =
      (if before = [] then [] else [(before.length, op)]) ++
        inner.marks (before.length + 1) (some op) := by
    by_cases hbefore : before = []
    · simp [marks, hbefore, binaryAfter]
    · have hlast : binaryAfter (before.getLast?.or none) = true := h.1.plain.binaryAfter hbefore
      rw [marks, if_pos hlast, if_neg hbefore, Nat.zero_add]
  rw [hmarks] at hcandidate hnarrow
  by_cases hbefore : before = []
  · subst hbefore
    rw [if_pos rfl, nil_append] at hcandidate hnarrow
    rcases hinner : inner.marks 1 (some op) with _ | ⟨mark, others⟩
    · refine iff_of_true (split_of_no_candidate ?_) (.inr hinner)
      rw [hcandidate, length_nil, hinner]
      rfl
    · refine iff_of_false ?_ (by simp [Settled, hinner])
      rw [length_nil, hinner] at hcandidate hnarrow
      rw [foldl_choose_first hnarrow] at hcandidate
      obtain ⟨hmem, front, back, hrender, hindex, hback⟩ := inner.exists_of_mem_marks h.2.2.1 mark
        (hinner ▸ .head _ : mark ∈ inner.marks 1 (some op))
      have hwhole : (sign [] op inner).render =
          (op :: front) ++ (operatorText mark.2 ++ back) := by
        simp [render, hrender]
      have hfront : ¬ trim (op :: front) = [] := by
        rw [trim_eq_nil_iff]
        intro hblank
        exact absurd (hblank op (.head _)) (by simp [ne_blank_of_operator (operator_of_sign h.2.1)])
      rw [hindex, Nat.add_comm] at hcandidate
      rw [split_of_candidate hwhole hback hcandidate, if_neg hfront]
      nofun
  · refine iff_of_true ?_ (.inl hbefore)
    rw [if_neg hbefore, singleton_append] at hcandidate hnarrow
    rw [foldl_choose_first hnarrow] at hcandidate
    have hwhole : (sign before op inner).render = before ++ (operatorText op ++ inner.render) := by
      rw [operatorText_of_sign h.2.1]
      rfl
    rw [split_of_candidate hwhole (inner.not_blank_render h.2.2.1) hcandidate,
      if_pos ((trim_eq_nil_iff before).mpr h.1)]

end Expression

def scaledSum : Expression :=
  .binary (.group [] (.binary (.operand ['a']) '+' (.operand ['b'])) [' ']) '*'
    (.operand [' ', 'c'])

end Stasis.Compiler
