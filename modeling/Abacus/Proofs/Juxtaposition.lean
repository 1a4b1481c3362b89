import Abacus.Calculation
import Abacus.Proofs.Composition
import Abacus.Proofs.Lookahead

/-!
# Operands Side by Side

Two operands side by side are multiplied. There are three ways to say where the
multiplication goes: a pass over the tokens that sees two of them at a time, a
loop that writes the tokens one by one and looks at the end of what it has
written, and a list of the neighbours with what stands between them. They are
the same. Behind a multiplication that it puts in the loop writes a token at
once, so what it finds at the end is never one of its own.

With the pass known at every place, a text can be put together from two others
with a blank or with a star between them, and nothing is left of the difference.
A star makes no lexeme longer that ends an operand, and is made longer by none
that starts one. The second text is read as if it began there in both cases: a
sign could not stand behind an operand, but it does not start with one.

## Main definitions

* `Token.between`: What is put between two tokens.
* `Token.writeNext`: One token is written behind others.

## Theorems

* `Token.foldl_writeNext`: What the loop writes behind what is there already.
* `Token.insertMul_eq_foldl`: The pass is the loop.
* `Token.insertMul_append`: The pass over two lists, one behind the other.
* `Token.insertMul_eq_zip`: The pass is a list of the neighbours.
* `Token.insertMul_eq_self_iff`: Nothing is put in where nothing abuts.
* `Lexeme.not_spells_append_star`: Only a star goes on with a star.
* `Lexeme.scan_append_star`: A star between two texts is a lexeme of its own.
* `implied_mul_eq_written`: The multiplication that is implied is the one that
  is written.
-/

namespace Abacus

namespace Token

/-- What is put between a token and the next one, if they are there. -/
def between (previous next : Option Token) : List Token :=
  if previous.any endsOperand && next.any startsOperand then [times] else []

/-- Writes a token behind others, and a multiplication before it if an operand
    ends with what is written last and the token starts one. -/
def writeNext (written : List Token) (t : Token) : List Token :=
  if written.getLast?.any endsOperand && t.startsOperand then written ++ [times, t]
  else written ++ [t]

theorem insertMul_cons (t : Token) (ts : List Token) :
    insertMul (t :: ts) = t :: (between (some t) ts.head? ++ insertMul ts) := by
  rcases ts with _ | ⟨u, rest⟩
  · rw [between, List.head?_nil, Option.any_none, Bool.and_false, if_neg Bool.false_ne_true]
    rfl
  · rw [insertMul, between, List.head?_cons, Option.any_some, Option.any_some]
    split <;> rfl

theorem writeNext_eq (written : List Token) (t : Token) :
    writeNext written t = written ++ between written.getLast? (some t) ++ [t] := by
  rw [writeNext, between, Option.any_some]
  split
  · rw [List.append_assoc]
    rfl
  · rw [List.append_nil]

theorem between_none_right (previous : Option Token) : between previous none = [] := by
  rw [between, Option.any_none, Bool.and_false, if_neg Bool.false_ne_true]

theorem between_times_right (previous : Option Token) : between previous (some times) = [] := by
  have hstart : (some times).any startsOperand = false := rfl
  rw [between, hstart, Bool.and_false, if_neg Bool.false_ne_true]

/-- Behind what is there already the loop writes what the pass makes of the
    tokens, joined to the last one that is there. -/
theorem foldl_writeNext (ts : List Token) (written : List Token) :
    ts.foldl writeNext written =
      written ++ between written.getLast? ts.head? ++ insertMul ts := by
  induction ts generalizing written with
  | nil =>
    rw [List.head?_nil, between_none_right, insertMul, List.append_nil, List.append_nil]
    rfl
  | cons t ts ih =>
    -- The token is written last, whether something was put before it or not.
    rw [List.foldl_cons, ih, writeNext_eq, List.getLast?_concat, List.head?_cons, insertMul_cons]
    simp only [List.append_assoc, List.cons_append, List.nil_append]

/-- The pass over the tokens is the loop that writes them one by one. -/
theorem insertMul_eq_foldl (ts : List Token) : insertMul ts = ts.foldl writeNext [] := by
  rw [foldl_writeNext]
  rfl

theorem getLast?_insertMul (ts : List Token) : (insertMul ts).getLast? = ts.getLast? := by
  induction ts with
  | nil => rfl
  | cons t ts ih =>
    rcases ts with _ | ⟨u, rest⟩
    · rfl
    · -- The second token is there to be last, so nothing in front of it is.
      rw [insertMul_cons, ← List.cons_append, List.getLast?_append, ih, List.getLast?_cons_cons,
        List.getLast?_cons, Option.some_or]

/-- The pass works on two lists by itself, with what is put in where they
    meet. -/
theorem insertMul_append (ts us : List Token) :
    insertMul (ts ++ us) = insertMul ts ++ between ts.getLast? us.head? ++ insertMul us := by
  -- The loop comes to the second list with the first one written.
  rw [insertMul_eq_foldl, List.foldl_append, foldl_writeNext us, ← insertMul_eq_foldl,
    getLast?_insertMul]

/-- The pass leaves the first token, and behind each token the next one, with a
    multiplication before it where the two abut. -/
theorem insertMul_eq_zip (ts : List Token) :
    insertMul ts = ts.take 1 ++
      (ts.zip ts.tail).flatMap fun p => if p.1.Abut p.2 then [times, p.2] else [p.2] := by
  fun_induction insertMul ts with
  | case1 => rfl
  | case2 t => rfl
  | case3 t u rest hab ih =>
    have habut : t.Abut u := Bool.and_eq_true_iff.mp hab
    rw [ih, List.tail_cons, List.tail_cons, List.zip_cons_cons, List.flatMap_cons, if_pos habut]
    rfl
  | case4 t u rest hab ih =>
    have habut : ¬ t.Abut u := fun h => hab (Bool.and_eq_true_iff.mpr h)
    rw [ih, List.tail_cons, List.tail_cons, List.zip_cons_cons, List.flatMap_cons, if_neg habut]
    rfl

theorem insertMul_eq_self_iff {ts : List Token} : insertMul ts = ts ↔ Separated ts := by
  constructor
  · intro h
    rw [← h]
    exact separated_insertMul ts
  · exact insertMul_of_separated

/-- Tokens that begin with no sign are the same behind others. -/
theorem behind_of_not_isUnary {t : Token} (ht : t.isUnary = false) (before ts : List Token) :
    behind before (t :: ts) = t :: ts := by
  have hsame : t.asOperator = t := by
    rcases t with a | (s | b) | _ | _
    · rfl
    · cases ht
    · rfl
    · rfl
    · rfl
  rw [behind, List.modifyHead_cons, hsame, ite_self]

theorem behind_of_startsOperand {ts : List Token} (h : ts.head?.any startsOperand = true)
    (before : List Token) : behind before ts = ts := by
  rcases ts with _ | ⟨t, ts⟩
  · cases h
  · refine behind_of_not_isUnary ?_ before ts
    rcases t with a | o | _ | _
    · rfl
    · cases h
    · rfl
    · cases h

end Token

namespace Lexeme

/-- A star is spelled in two lexemes only. -/
theorem Spells.of_star_mem {l : Lexeme} {cs : List Char} (hs : Spells l cs) (h : '*' ∈ cs) :
    (l = .star ∧ cs = ['*']) ∨ (l = .starStar ∧ cs = ['*', '*']) := by
  cases hs with
  | number hn => exact absurd hn (not_isNumeral_of_mem h (by decide) (by decide))
  | star => exact .inl ⟨rfl, rfl⟩
  | starStar => exact .inr ⟨rfl, rfl⟩
  | _ => exact absurd h (by decide)

/-- Only a star is made longer by a star. -/
theorem not_spells_append_star {l l' : Lexeme} {cs : List Char} (hs : Spells l cs)
    (h : l ≠ .star) : ¬ Spells l' (cs ++ ['*']) := by
  intro hs'
  rcases hs'.of_star_mem (List.mem_append_right cs List.mem_cons_self) with ⟨_, hone⟩ | ⟨_, htwo⟩
  · exact hs.ne_nil (List.append_cancel_right (hone.trans (List.nil_append ['*']).symm))
  · have hcs : cs = ['*'] := List.append_cancel_right htwo
    rw [hcs] at hs
    exact h (hs.lexeme_unique .star)

/-- A text whose first lexeme starts an operand does not start with a star. -/
theorem head?_ne_star {text : List Char} {ls : List Lexeme} (h : Segments text ls)
    (hstart : (Token.ofLexemes true ls).head?.any Token.startsOperand = true) :
    text.head? ≠ some '*' := by
  intro hhead
  cases h with
  | done => cases hhead
  | blank hc h =>
    rw [Option.some.inj hhead] at hc
    exact absurd hc (by decide)
  | @lexeme l cs rest ls hs hmax h =>
    have hmem : '*' ∈ cs := by
      rcases cs with _ | ⟨c, cs⟩
      · exact absurd rfl hs.ne_nil
      · rw [Option.some.inj hhead]
        exact List.mem_cons_self
    rcases hs.of_star_mem hmem with ⟨rfl, _⟩ | ⟨rfl, _⟩
    · cases hstart
    · cases hstart

/-- The last lexeme is no star if an operand ends with the last token. -/
theorem ne_star_of_getLast? {ls : List Lexeme} {l : Lexeme} (hl : ls.getLast? = some l)
    (hend : (Token.ofLexemes true ls).getLast?.any Token.endsOperand = true) : l ≠ .star := by
  rintro rfl
  rcases List.getLast?_eq_some_iff.mp hl with ⟨before, rfl⟩
  rw [Token.ofLexemes_append_behind, Token.ofLexemes, Token.behind_of_not_isUnary rfl,
    Token.ofLexemes, List.getLast?_concat] at hend
  cases hend

/-- Between a text whose last lexeme ends an operand and one whose first lexeme
    starts one, a star is a lexeme by itself. -/
theorem scan_append_star {a b : List Char} {ls ms : List Lexeme} (ha : Segments a ls)
    (hb : Segments b ms)
    (hend : (Token.ofLexemes true ls).getLast?.any Token.endsOperand = true)
    (hstart : (Token.ofLexemes true ms).head?.any Token.startsOperand = true) :
    scan 0 (a ++ '*' :: b) = .ok (ls ++ .star :: ms) := by
  have hlone : Longest ['*'].length (['*'] ++ b) := by
    refine (longest_iff .star).mpr fun c hc l' hs' => head?_ne_star hb hstart ?_
    -- Only another star could go on from the one that is there.
    rcases hs'.of_star_mem List.mem_cons_self with ⟨_, hone⟩ | ⟨_, htwo⟩
    · cases hone
    · cases htwo
      exact hc
  refine scan_of_segments (SegmentsBefore.append (segmentsBefore_of_segments ha ?_)
    (.lexeme .star hlone hb)) 0
  intro l hl cs hs
  refine (longest_iff hs).mpr fun c hc l' => ?_
  rw [← Option.some.inj hc]
  exact not_spells_append_star hs (ne_star_of_getLast? hl hend)

end Lexeme

/-- Where an operand ends and another one starts, blanks between two texts give
    the same tokens as a star. -/
theorem tokenize_blanks_eq_star {a w b : List Char} {as bs : List Token}
    (ha : tokenize a true = .ok as) (hb : tokenize b true = .ok bs)
    (hend : as.getLast?.any Token.endsOperand = true)
    (hstart : bs.head?.any Token.startsOperand = true) (hw : w ≠ [])
    (hblank : ∀ c ∈ w, isBlank c = true) :
    tokenize (a ++ w ++ b) true = .ok (as ++ Token.times :: bs) ∧
    tokenize (a ++ '*' :: b) true = .ok (as ++ Token.times :: bs) := by
  rcases tokenize_true_eq_ok_iff.mp ha with ⟨us, hus, rfl⟩
  rcases tokenize_true_eq_ok_iff.mp hb with ⟨vs, hvs, rfl⟩
  rw [Token.getLast?_insertMul] at hend
  rw [Token.head?_insertMul] at hstart
  constructor
  · rw [((tokenize_append_blanks hw hblank hus).1 vs hvs).2, Token.behind_of_startsOperand hstart,
      Token.insertMul_append, Token.between, hend, hstart, Bool.and_self, if_pos rfl,
      List.append_assoc]
    rfl
  · rcases tokenize_strict_eq_ok_iff.mp hus with ⟨ls, hls, rfl⟩
    rcases tokenize_strict_eq_ok_iff.mp hvs with ⟨ms, hms, rfl⟩
    have hscan := Lexeme.scan_append_star (Lexeme.segments_of_scan hls)
      (Lexeme.segments_of_scan hms) hend hstart
    refine tokenize_eq_ok_iff.mpr ⟨_, hscan, ?_⟩
    -- Behind an operator the second text is read as at its start.
    have htimes : Token.ofLexemes true (.star :: ms) =
      Token.times :: Token.ofLexemes true ms := rfl
    rw [if_pos rfl, Token.ofLexemes_append_behind, htimes, Token.behind_of_not_isUnary rfl,
      Token.insertMul_append, Token.insertMul_cons, List.head?_cons, Token.between_times_right,
      List.append_nil]
    rfl

/-- Equal tokens make equal trees and values. -/
theorem run_congr {text other : List Char} {config : Config}
    (h : tokenize text config.implicitMul = tokenize other config.implicitMul) :
    (run text config).map (fun r => (r.tokens, r.tree, r.value)) =
      (run other config).map (fun r => (r.tokens, r.tree, r.value)) := by
  simp only [run, calculateWithNotes, h]
  cases tokenize other config.implicitMul with
  | error e => rfl
  | ok ts =>
    dsimp only
    cases parse ts with
    | error e => rfl
    | ok t => rfl

/-- The implied multiplications are one between every two neighbours that abut,
    also as the loop puts them in; they leave none that do, and change nothing
    where there are none. Two texts, of which the first one ends with an operand
    and the second one starts with one, have the same tokens, tree and value with
    blanks between them as with a star. -/
theorem implied_mul_eq_written :
    (∀ ts : List Token,
      Token.insertMul ts = ts.foldl Token.writeNext [] ∧
      Token.insertMul ts = ts.take 1 ++ (ts.zip ts.tail).flatMap
        (fun p => if p.1.Abut p.2 then [Token.times, p.2] else [p.2]) ∧
      Separated (Token.insertMul ts) ∧
      (Token.insertMul ts = ts ↔ Separated ts) ∧
      Token.insertMul (Token.insertMul ts) = Token.insertMul ts) ∧
    ∀ (a b w : List Char) (as bs : List Token), tokenize a true = .ok as →
      tokenize b true = .ok bs → as.getLast?.any Token.endsOperand = true →
      bs.head?.any Token.startsOperand = true → w ≠ [] → (∀ c ∈ w, isBlank c = true) →
      tokenize (a ++ w ++ b) true = tokenize (a ++ '*' :: b) true ∧
      tokenize (a ++ w ++ b) true = .ok (as ++ Token.times :: bs) ∧
      ∀ config : Config, config.implicitMul = true →
        (run (a ++ w ++ b) config).map (fun r => (r.tokens, r.tree, r.value)) =
          (run (a ++ '*' :: b) config).map (fun r => (r.tokens, r.tree, r.value)) ∧
        calculate (a ++ w ++ b) config = calculate (a ++ '*' :: b) config := by
  constructor
  · intro ts
    have hsep := Token.separated_insertMul ts
    exact ⟨Token.insertMul_eq_foldl ts, Token.insertMul_eq_zip ts, hsep,
      Token.insertMul_eq_self_iff, Token.insertMul_of_separated hsep⟩
  · intro a b w as bs ha hb hend hstart hw hblank
    rcases tokenize_blanks_eq_star ha hb hend hstart hw hblank with ⟨hblanks, hstar⟩
    have hsame := hblanks.trans hstar.symm
    refine ⟨hsame, hblanks, fun config hmul => ?_⟩
    rw [← hmul] at hsame
    exact ⟨run_congr hsame, by rw [calculate, calculate, hsame]⟩

/-- A line break between `e+pi` and `(e)` is a star. -/
theorem implied_mul_eq_written_e_plus_pi_parens :
    tokenize "e+pi ".toList true = .ok [.atom .e, .op (.binary .add), .atom .pi] ∧
    tokenize "(e)".toList true = .ok [.openParen, .atom .e, .closeParen] ∧
    tokenize ("e+pi ".toList ++ ['\n'] ++ "(e)".toList) true =
      tokenize ("e+pi ".toList ++ '*' :: "(e)".toList) true := by
  have ha : tokenize "e+pi ".toList true = .ok [.atom .e, .op (.binary .add), .atom .pi] := by
    cbv
  have hb : tokenize "(e)".toList true = .ok [.openParen, .atom .e, .closeParen] := by cbv
  have hblank : ∀ c ∈ ['\n'], isBlank c = true := List.all_eq_true.mp (by decide)
  exact ⟨ha, hb, (implied_mul_eq_written.2 _ _ _ _ _ ha hb rfl rfl (List.cons_ne_nil _ _)
    hblank).1⟩

end Abacus
