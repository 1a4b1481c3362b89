import Abacus.CommandLine
import Abacus.Proofs.CommandLine.Lines
import Abacus.Proofs.Printing

/-!
# What a Report Is Shown As

The output is a list of lines, each of which is one text on its own: the line
for other programs, or the parts that are asked for with the value behind them.

The line for other programs has the five fields of the report in the order of
their names, and each of them once. The order is that of the sorting, which does
not look at the values, so it is found once for all reports.

## Main definitions

* `jsonLine`: The line for other programs.
* `shownLines`: The lines that options ask for.
* `written`: Lines as they are written.

## Theorems

* `sortedByKey_fields`: The order of the five fields.
* `json_toDatum`: A report as data is the line for other programs.
* `output_eq_written`: The output of a report is its lines.
* `oneLine_of_mem_shownLines`: And each of them is one line.
-/

namespace Abacus

namespace CommandLine

/-- The line for other programs: the five fields of a report. -/
def jsonLine (r : Report) : String :=
  "\x7b" ++ commaSeparated
    ["\"expression\": " ++ jsonText (String.ofList r.text),
     "\"precision\": " ++ jsonText r.precision.name,
     "\"tokens\": " ++ ("[" ++ commaSeparated (r.tokens.map fun t => jsonText t.label) ++ "]"),
     "\"tree\": " ++ jsonText (String.ofList r.tree.text),
     "\"value\": " ++ jsonFloat r.value] ++ "\x7d"

/-- The lines that are shown of a report. -/
def shownLines (o : Options) (r : Report) : List String :=
  if o.json then [jsonLine r]
  else
    (if o.showTokens then [String.intercalate " " (r.tokens.map Token.label)] else []) ++
      (if o.showAst then [String.ofList r.tree.text] else []) ++ [numberLabel r.value]

/-- Lines as they are written, each with an end of its own. -/
def written (lines : List String) : String :=
  String.join (lines.map (· ++ "\n"))

/-! ### The line for other programs -/

/-- The fields of a report in the order of their names, whatever their values. -/
theorem sortedByKey_fields (expression tokens tree value precision : String) :
    sortedByKey [("expression", expression), ("tokens", tokens), ("tree", tree), ("value", value),
        ("precision", precision)] =
      [("expression", expression), ("precision", precision), ("tokens", tokens), ("tree", tree),
        ("value", value)] := by
  cbv

theorem jsonItems_texts (texts : List String) :
    Datum.jsonItems (texts.map .text) = texts.map jsonText := by
  induction texts with
  | nil => rfl
  | cons s texts ih => rw [List.map_cons, Datum.jsonItems, ih]; rfl

theorem json_toDatum (r : Report) : r.toDatum.json = jsonLine r := by
  have hlabels : Datum.jsonItems (r.tokens.map fun t => .text t.label) =
      r.tokens.map fun t => jsonText t.label := by
    have h := jsonItems_texts (r.tokens.map Token.label)
    rw [List.map_map, List.map_map] at h
    exact h
  have hentries : Datum.jsonEntries
      [(.text "expression", .text (String.ofList r.text)),
       (.text "tokens", .list (r.tokens.map fun t => .text t.label)),
       (.text "tree", .text (String.ofList r.tree.render)),
       (.text "value", .scalar (.float r.value)),
       (.text "precision", .text r.precision.name)] =
      [("expression", jsonText (String.ofList r.text)),
       ("tokens", "[" ++ commaSeparated (r.tokens.map fun t => jsonText t.label) ++ "]"),
       ("tree", jsonText (String.ofList r.tree.text)), ("value", jsonFloat r.value),
       ("precision", jsonText r.precision.name)] := by
    rw [Expr.render_eq_text, ← hlabels]
    rfl
  have hnames : jsonText "expression" ++ ": " = "\"expression\": " ∧
      jsonText "precision" ++ ": " = "\"precision\": " ∧
      jsonText "tokens" ++ ": " = "\"tokens\": " ∧
      jsonText "tree" ++ ": " = "\"tree\": " ∧
      jsonText "value" ++ ": " = "\"value\": " := by decide
  rcases hnames with ⟨hexpression, hprecision, htokens, htree, hvalue⟩
  have hjson : r.toDatum.json = "\x7b" ++ commaSeparated ((sortedByKey (Datum.jsonEntries
      [(.text "expression", .text (String.ofList r.text)),
       (.text "tokens", .list (r.tokens.map fun t => .text t.label)),
       (.text "tree", .text (String.ofList r.tree.render)),
       (.text "value", .scalar (.float r.value)),
       (.text "precision", .text r.precision.name)])).map fun entry =>
        jsonText entry.1 ++ ": " ++ entry.2) ++ "\x7d" := by
    rw [Report.toDatum, Datum.json]
  rw [hjson, hentries, sortedByKey_fields]
  simp only [List.map_cons, List.map_nil, hexpression, hprecision, htokens, htree, hvalue, jsonLine]

/-! ### The lines -/

theorem written_append (ls ms : List String) : written (ls ++ ms) = written ls ++ written ms := by
  rw [written, List.map_append, String.join_append, written, written]

theorem written_singleton (line : String) : written [line] = line ++ "\n" := by
  rw [written, List.map_singleton, String.join_cons, String.join_nil, String.append_empty]

theorem written_ite (shown : Bool) (line : String) :
    written (if shown then [line] else []) = if shown then line ++ "\n" else "" := by
  cases shown with
  | false => exact String.join_nil
  | true => exact written_singleton line

theorem output_eq_written (o : Options) (r : Report) : output o r = written (shownLines o r) := by
  unfold output shownLines
  split
  · rw [json_toDatum, written_singleton]
  · rw [written_append, written_append, written_ite, written_ite, written_singleton,
      Expr.render_eq_text, String.append_assoc]

theorem oneLine_intercalate {separator : String} (hs : OneLine separator.toList)
    {parts : List String} (h : ∀ s ∈ parts, OneLine s.toList) :
    OneLine (String.intercalate separator parts).toList := by
  induction parts with
  | nil => rfl
  | cons s parts ih =>
    cases parts with
    | nil =>
      rw [String.intercalate_singleton]
      exact h s List.mem_cons_self
    | cons t parts =>
      rw [String.intercalate_cons_cons, String.toList_append, String.toList_append, oneLine_append,
        oneLine_append]
      exact ⟨⟨h s List.mem_cons_self, hs⟩, ih fun u hu => h u (List.mem_cons_of_mem _ hu)⟩

theorem oneLine_jsonLine (r : Report) : OneLine (jsonLine r).toList := by
  have hcomma : OneLine ", ".toList := rfl
  have hitems : OneLine (commaSeparated (r.tokens.map fun t => jsonText t.label)).toList := by
    refine oneLine_intercalate hcomma fun s hs => ?_
    rcases List.mem_map.mp hs with ⟨t, _, rfl⟩
    exact oneLine_jsonText t.label
  have hfield {name value : String} (hn : OneLine name.toList) (hv : OneLine value.toList) :
      OneLine (name ++ value).toList := by
    rw [String.toList_append, oneLine_append]
    exact ⟨hn, hv⟩
  refine hfield (hfield rfl (oneLine_intercalate hcomma fun s hs => ?_)) rfl
  simp only [List.mem_cons, List.not_mem_nil, or_false] at hs
  rcases hs with rfl | rfl | rfl | rfl | rfl
  · exact hfield rfl (oneLine_jsonText _)
  · exact hfield rfl (oneLine_jsonText _)
  · exact hfield rfl (hfield (hfield rfl hitems) rfl)
  · exact hfield rfl (oneLine_jsonText _)
  · exact hfield rfl (oneLine_jsonFloat _)

theorem oneLine_of_mem_shownLines {o : Options} {r : Report} {line : String}
    (h : line ∈ shownLines o r) : OneLine line.toList := by
  unfold shownLines at h
  split at h
  · rw [List.mem_singleton.mp h]
    exact oneLine_jsonLine r
  · rcases List.mem_append.mp h with h | h
    · rcases List.mem_append.mp h with h | h
      · rcases List.mem_ite_nil_right.mp h with ⟨_, h⟩
        rw [List.mem_singleton.mp h]
        refine oneLine_intercalate (show OneLine " ".toList from rfl) fun s hs => ?_
        rcases List.mem_map.mp hs with ⟨t, _, rfl⟩
        exact t.oneLine_label
      · rcases List.mem_ite_nil_right.mp h with ⟨_, h⟩
        rw [List.mem_singleton.mp h, String.toList_ofList]
        exact r.tree.oneLine_text
    · rw [List.mem_singleton.mp h]
      exact oneLine_numberLabel r.value

end CommandLine

end Abacus
