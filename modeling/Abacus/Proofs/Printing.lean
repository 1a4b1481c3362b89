import Abacus.Expr.Printer
import Abacus.Proofs.Decimal.Layout
import Abacus.Proofs.Parser.Conservation
import Abacus.Proofs.Parser.Soundness
import Abacus.Proofs.Segmentation

/-!
# Printed Trees Read Back

The text of a tree goes through all stages of reading and comes out as the
same tree. At each stage it is clear from the tree what has to come out:
`Expr.lexemes` of the lexer and `Expr.tokens` of the reading of signs. Nothing
is left for the implied multiplications to do, since the tokens derive the
tree and so no operands abut in them.

The text of a tree always has something behind it: a blank, a closing
parenthesis or the end of the text. None of them can make a number at the
right end of the tree any longer, so what is proved of a tree is proved for
every such text behind it.

What is needed of the numbers at the leaves is that each text is a numeral for
its number. That is a matter of the decimals alone, and is proved elsewhere.

## Main definitions

* `Atom.ReadsBack`: The text of a leaf reads back as the leaf.
* `Expr.lexemes`: The lexemes of the text of a tree.
* `Expr.tokens`: The tokens of the text of a tree.
* `Expr.Plain`: The numbers in a tree are finite and have no sign bit set.

## Theorems

* `Expr.render_eq_text`: The list of work prints the text.
* `Expr.segments_text`: The text of a tree splits into its lexemes.
* `Expr.derives_tokens`: The tokens of a tree derive it.
* `Expr.tokenize_text`, `Expr.parse_tokens`: The text reads as the tokens and
  these as the tree.
* `exists_value_of_tokenize`: The numbers of a text are read from spellings.
* `render_roundtrip`: A tree of plain numbers is read back from its text, and
  parsing makes no others unless a number is too large.
-/

namespace Abacus

/-- The text of an atom is read as the atom itself. -/
def Atom.ReadsBack : Atom → Prop
  | number v => IsNumeral (plainNumber v) ∧ Numeral.value (plainNumber v) = v
  | e => True
  | pi => True

/-- The lexeme that the text of an atom is. -/
def Atom.lexeme : Atom → Lexeme
  | number v => .number (plainNumber v)
  | e => .e
  | pi => .pi

/-- The lexeme that the symbol of a sign is. -/
def Sign.lexeme : Sign → Lexeme
  | plus => .plus
  | minus => .minus

/-- The lexeme that the symbol of a two-place operator is. -/
def BinOp.lexeme : BinOp → Lexeme
  | add => .plus
  | sub => .minus
  | mul => .star
  | div => .slash
  | pow => .starStar

/-- Nothing that could belong to a numeral stands at the front of a text. -/
def EndsNumeral (rest : List Char) : Prop :=
  ∀ c ∈ rest.head?, c.isDigit = false ∧ c ≠ '.'

theorem endsNumeral_nil : EndsNumeral [] :=
  fun _ hc => nomatch hc

theorem endsNumeral_blank (rest : List Char) : EndsNumeral (' ' :: rest) := by
  intro c hc
  rw [← Option.some.inj hc]
  exact ⟨rfl, Char.ne_of_val_ne (by decide)⟩

theorem endsNumeral_closeParen (rest : List Char) : EndsNumeral (')' :: rest) := by
  intro c hc
  rw [← Option.some.inj hc]
  exact ⟨rfl, Char.ne_of_val_ne (by decide)⟩

/-- What is read at the front of a text is its first segment. -/
theorem Segments.of_read {c : Char} {rest after : List Char} {l : Lexeme} {ls : List Lexeme}
    (hread : Lexeme.read c rest = .ok (l, after)) (h : Segments after ls) :
    Segments (c :: rest) (l :: ls) := by
  rcases Lexeme.read_eq_ok_iff.mp hread with ⟨cs, happ, hs, hmax⟩
  rw [← happ] at hmax ⊢
  exact .lexeme hs hmax h

theorem Atom.segments_text {a : Atom} (ha : a.ReadsBack) {rest : List Char} {ls : List Lexeme}
    (hend : EndsNumeral rest) (h : Segments rest ls) :
    Segments (a.text ++ rest) (a.lexeme :: ls) := by
  cases a with
  | e => exact .of_read rfl h
  | pi => exact .of_read rfl h
  | number v =>
    have hsplit := Numeral.split_append_of_stop ha.1 hend
    change Segments (plainNumber v ++ rest) _
    cases hv : plainNumber v with
    | nil => exact absurd hv ha.1.ne_nil
    | cons c cs =>
      have hnum : IsNumeral (c :: cs) := hv ▸ ha.1
      rw [hv, List.cons_append] at hsplit
      rw [List.cons_append]
      refine .of_read ?_ h
      unfold Lexeme.read
      rw [if_pos (Lexeme.starts_numeral hnum (List.append_nil _)), hsplit, Atom.lexeme, hv]

theorem Sign.segments_symbol (s : Sign) {rest : List Char} {ls : List Lexeme}
    (h : Segments rest ls) : Segments (s.symbol.toList ++ rest) (s.lexeme :: ls) := by
  cases s with
  | plus => exact .of_read rfl h
  | minus => exact .of_read rfl h

/-- The blank keeps a star from being taken together with what follows. -/
theorem BinOp.segments_symbol (b : BinOp) {rest : List Char} {ls : List Lexeme}
    (h : Segments (' ' :: rest) ls) :
    Segments (b.symbol.toList ++ ' ' :: rest) (b.lexeme :: ls) := by
  cases b with
  | add => exact .of_read rfl h
  | sub => exact .of_read rfl h
  | mul => exact .of_read rfl h
  | div => exact .of_read rfl h
  | pow => exact .of_read rfl h

namespace Token

theorem ofLexeme_sign (s : Sign) : ofLexeme true s.lexeme = op (.unary s) := by
  cases s <;> rfl

theorem ofLexeme_binOp (b : BinOp) : ofLexeme false b.lexeme = op (.binary b) := by
  cases b <;> rfl

theorem ofLexeme_atom {a : Atom} (ha : a.ReadsBack) (atSign : Bool) :
    ofLexeme atSign a.lexeme = atom a := by
  cases a with
  | number v => exact congrArg (atom ∘ Atom.number) ha.2
  | e => rfl
  | pi => rfl

end Token

namespace Expr

/-- The lexemes of the text of a tree. -/
def lexemes : Expr → List Lexeme
  | leaf a => [a.lexeme]
  | unary s x => .openParen :: s.lexeme :: x.lexemes ++ [.closeParen]
  | binary b l r => .openParen :: l.lexemes ++ b.lexeme :: r.lexemes ++ [.closeParen]

/-- The tokens of the text of a tree. -/
def tokens : Expr → List Token
  | leaf a => [.atom a]
  | unary s x => .openParen :: .op (.unary s) :: x.tokens ++ [.closeParen]
  | binary b l r => .openParen :: l.tokens ++ .op (.binary b) :: r.tokens ++ [.closeParen]

theorem render_eq_text (t : Expr) : t.render = t.text := by
  rw [render, flatten_printAll]
  simp only [List.reverse_nil, List.flatten_nil, List.map_cons, List.map_nil, Printing.text,
    List.flatten_cons, List.append_nil, List.nil_append]

/-- The text of a tree splits into its lexemes, whatever follows that cannot
    belong to a numeral. -/
theorem segments_text {t : Expr} :
    (∀ a ∈ t.atoms, a.ReadsBack) → ∀ {rest : List Char} {ls : List Lexeme},
      EndsNumeral rest → Segments rest ls → Segments (t.text ++ rest) (t.lexemes ++ ls) := by
  induction t with
  | leaf a =>
    intro ht rest ls hend h
    exact Atom.segments_text (ht a List.mem_cons_self) hend h
  | unary s x ih =>
    intro ht rest ls _ h
    have hclose : Segments (')' :: rest) (.closeParen :: ls) := .of_read rfl h
    have hx := s.segments_symbol (ih ht (endsNumeral_closeParen rest) hclose)
    simp only [text, lexemes, List.cons_append, List.append_assoc, List.nil_append]
    exact .of_read rfl hx
  | binary b l r ihl ihr =>
    intro ht rest ls _ h
    have hl (a : Atom) (ha : a ∈ l.atoms) : a.ReadsBack := ht a (List.mem_append_left _ ha)
    have hr (a : Atom) (ha : a ∈ r.atoms) : a.ReadsBack := ht a (List.mem_append_right _ ha)
    -- From the right: each part is a text that may stand behind the one before.
    have hclose : Segments (')' :: rest) (.closeParen :: ls) := .of_read rfl h
    have hright := ihr hr (endsNumeral_closeParen rest) hclose
    have hop := b.segments_symbol (.blank rfl hright)
    have hleft := ihl hl (endsNumeral_blank _) (.blank rfl hop)
    simp only [text, lexemes, List.cons_append, List.append_assoc, List.nil_append]
    exact .of_read rfl hleft

/-- Signs and operators are told apart by what stands before them in the
    text. -/
theorem ofLexemes_lexemes {t : Expr} :
    (∀ a ∈ t.atoms, a.ReadsBack) → ∀ (atSign : Bool) (ls : List Lexeme),
      Token.ofLexemes atSign (t.lexemes ++ ls) = t.tokens ++ Token.ofLexemes false ls := by
  induction t with
  | leaf a =>
    intro ht atSign ls
    have ha := Token.ofLexeme_atom (ht a List.mem_cons_self) atSign
    rw [lexemes, tokens, List.singleton_append, Token.ofLexemes, ha]
    rfl
  | unary s x ih =>
    intro ht atSign ls
    have hsign : Token.ofLexeme (Token.ofLexeme atSign .openParen).opensSign s.lexeme =
        .op (.unary s) := Token.ofLexeme_sign s
    simp only [lexemes, tokens, List.cons_append, List.append_assoc, List.nil_append,
      Token.ofLexemes, hsign, ih ht]
    rfl
  | binary b l r ihl ihr =>
    intro ht atSign ls
    have hl (a : Atom) (ha : a ∈ l.atoms) : a.ReadsBack := ht a (List.mem_append_left _ ha)
    have hr (a : Atom) (ha : a ∈ r.atoms) : a.ReadsBack := ht a (List.mem_append_right _ ha)
    simp only [lexemes, tokens, List.cons_append, List.append_assoc, List.nil_append,
      Token.ofLexemes, ihl hl, ihr hr, Token.ofLexeme_binOp]
    rfl

/-- The tokens of a tree are an operand, in parentheses if the tree is a
    node. -/
theorem derives_tokens (t : Expr) : Derives .operand t.tokens t := by
  induction t with
  | leaf a => exact .leaf a
  | unary s x ih => exact .parens (Derives.sign s (.unsigned ih)).toSum
  | binary b l r ihl ihr =>
    have hl : Derives .signed l.tokens l := .unsigned ihl
    have hr : Derives .power r.tokens r := .base (.unsigned ihr)
    rw [tokens, List.cons_append]
    refine .parens ?_
    cases b with
    | add => exact .sum (Or.inl rfl) hl.toSum (.factor hr)
    | sub => exact .sum (Or.inr rfl) hl.toSum (.factor hr)
    | mul => exact .term (.product (Or.inl rfl) (.factor (.base hl)) hr)
    | div => exact .term (.product (Or.inr rfl) (.factor (.base hl)) hr)
    | pow => exact .term (.factor (.pow hl hr))

theorem parse_tokens (t : Expr) : parse t.tokens = .ok t :=
  parse_of_derives t.derives_tokens.toSum

theorem tokenize_text {t : Expr} (ht : ∀ a ∈ t.atoms, a.ReadsBack) (implicitMul : Bool) :
    tokenize t.text implicitMul = .ok t.tokens := by
  have hseg := segments_text ht endsNumeral_nil .done
  have hscan := Lexeme.scan_of_segments hseg 0
  have htok := ofLexemes_lexemes ht true []
  have hsep : Separated t.tokens := separated_of_derives t.derives_tokens
  simp only [List.append_nil, Token.ofLexemes] at hscan htok
  refine tokenize_eq_ok_iff.mpr ⟨_, hscan, ?_⟩
  rw [htok, Token.insertMul_of_separated hsep, ite_self]

/-- The numbers in a tree are finite and have no sign bit set. -/
def Plain (t : Expr) : Prop :=
  ∀ v, Atom.number v ∈ t.atoms → v.isFinite = true ∧ hasSignBit v = false

theorem Plain.readsBack {t : Expr} (ht : t.Plain) : ∀ a ∈ t.atoms, a.ReadsBack := by
  intro a ha
  cases a with
  | number v => exact reads_plainNumber (ht v ha).1 (ht v ha).2
  | e => trivial
  | pi => trivial

end Expr

namespace Token

/-- A number in the tokens of a text has been read from a spelling. -/
theorem exists_value_of_mem {ls : List Lexeme} {v : Float} :
    ∀ {atSign : Bool}, atom (.number v) ∈ ofLexemes atSign ls → ∃ s, v = Numeral.value s := by
  induction ls with
  | nil => exact fun h => absurd h List.not_mem_nil
  | cons l ls ih =>
    intro atSign h
    rcases List.mem_cons.mp h with h | h
    · cases l with
      | number s => exact ⟨s, Atom.number.inj (Token.atom.inj h)⟩
      | _ => exact nomatch h
    · exact ih h

theorem eq_atom_of_atom? {t : Token} {a : Atom} (h : t.atom? = some a) : t = atom a := by
  cases t with
  | atom b => rw [Option.some.inj h]
  | _ => exact nomatch h

theorem mem_of_mem_insertMul {a : Atom} {ts : List Token} (h : atom a ∈ insertMul ts) :
    atom a ∈ ts := by
  fun_induction insertMul ts with
  | case1 => exact h
  | case2 t => exact h
  | case3 t u rest hab ih =>
    rcases List.mem_cons.mp h with h | h
    · exact List.mem_cons.mpr (Or.inl h)
    · rcases List.mem_cons.mp h with h | h
      · cases h
      · exact List.mem_cons_of_mem _ (ih h)
  | case4 t u rest hab ih =>
    rcases List.mem_cons.mp h with h | h
    · exact List.mem_cons.mpr (Or.inl h)
    · exact List.mem_cons_of_mem _ (ih h)

end Token

theorem exists_value_of_tokenize {text : List Char} {implicitMul : Bool} {ts : List Token}
    {v : Float} (h : tokenize text implicitMul = .ok ts) (hv : .atom (.number v) ∈ ts) :
    ∃ s, v = Numeral.value s := by
  rcases tokenize_eq_ok_iff.mp h with ⟨ls, _, rfl⟩
  cases implicitMul with
  | true => exact Token.exists_value_of_mem (Token.mem_of_mem_insertMul hv)
  | false => exact Token.exists_value_of_mem hv

/-- Every tree of plain numbers is printed as a text that is read as the tree,
    with implied multiplications or without, which makes no difference. A tree
    that is parsed from a text is such a tree if no number in the text is too
    large for a double. -/
theorem render_roundtrip :
    (∀ t : Expr, t.Plain →
        ∃ ts, (∀ implicitMul, tokenize t.render implicitMul = .ok ts) ∧ parse ts = .ok t) ∧
      ∀ text implicitMul ts t, tokenize text implicitMul = .ok ts → parse ts = .ok t →
        (∀ v, Token.atom (.number v) ∈ ts → v.isFinite = true) → t.Plain := by
  constructor
  · intro t ht
    rw [t.render_eq_text]
    exact ⟨t.tokens, Expr.tokenize_text ht.readsBack, t.parse_tokens⟩
  · intro text implicitMul ts t htok hparse hfinite v hv
    -- A leaf of the tree is an atom of the tokens, and read from its spelling.
    rw [← atoms_of_parse hparse] at hv
    rcases List.mem_filterMap.mp hv with ⟨u, hu, hatom⟩
    rw [Token.eq_atom_of_atom? hatom] at hu
    refine ⟨hfinite v hu, ?_⟩
    rcases exists_value_of_tokenize htok hu with ⟨s, rfl⟩
    exact Decimal.hasSignBit_toFloat _

/-- The tree of a text with a fraction, a sign and a constant. -/
theorem render_roundtrip_neg_half_pow_e :
    let ts : List Token := [.op (.unary .minus), .atom (.number 0.5), .op (.binary .pow), .atom .e]
    let t := Expr.binary .pow (.unary .minus (.leaf (.number 0.5))) (.leaf .e)
    tokenize "-.5**e".toList false = .ok ts ∧ parse ts = .ok t ∧ t.Plain ∧
      ∃ us, (∀ implicitMul, tokenize t.render implicitMul = .ok us) ∧ parse us = .ok t := by
  intro ts t
  have htok : tokenize "-.5**e".toList false = .ok ts := by decide +kernel
  have hparse : parse ts = .ok t := rfl
  have hfinite (v : Float) (hv : Token.atom (.number v) ∈ ts) : v.isFinite = true := by
    have hmem : v ∈ [(0.5 : Float)] := by simpa [ts] using hv
    rw [List.mem_singleton.mp hmem]
    decide +kernel
  have hplain : t.Plain := render_roundtrip.2 _ _ _ _ htok hparse hfinite
  exact ⟨htok, hparse, hplain, render_roundtrip.1 t hplain⟩

end Abacus
