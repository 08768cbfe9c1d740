import CallGraph.Proofs.Demangler.Batching

/-!
# Replies and their lines

A reply is taken apart into the lines that it was made up from, however each of them ends, and empty ones
are lines like all others, at the end of the reply, too. So the reply to a batch is read exactly when it has a
line for each symbol, and then the symbols stand in the answers in their order, each with what its own line says.
-/

namespace CallGraph

/-- What ends a line. -/
inductive LineEnd
  | lineFeed
  | returnAndLineFeed
  deriving DecidableEq, Repr

def LineEnd.text : LineEnd → String
  | .lineFeed => "\n"
  | .returnAndLineFeed => "\r\n"

/-- A line of a reply, with its end; no end of a line stands within it. -/
structure ReplyLine where
  text : String
  ending : LineEnd
  newline_not_mem : '\n' ∉ text.toList := by decide
  return_not_mem : '\r' ∉ text.toList := by decide

namespace ReplyLine

/-- The text of a reply. -/
def written (lines : List ReplyLine) : String :=
  String.join (lines.map fun line => line.text ++ line.ending.text)

theorem filter_text (line : ReplyLine) :
    (line.text.toList.filter fun c => c != '\r') = line.text.toList := by
  refine List.filter_eq_self.2 fun c hc => bne_iff_ne.2 ?_
  rintro rfl
  exact line.return_not_mem hc

theorem filter_ending (line : ReplyLine) :
    ((line.text ++ line.ending.text).toList.filter fun c => c != '\r') = (line.text ++ "\n").toList := by
  rw [String.toList_append, String.toList_append, List.filter_append, filter_text]
  cases line.ending <;> rfl

theorem filter_written (lines : List ReplyLine) :
    String.ofList ((written lines).toList.filter fun c => c != '\r') =
      String.join ((lines.map text).map fun line => line ++ "\n") := by
  rw [written, Answers.filter_join filter_ending, List.map_map]
  rfl

theorem newline_not_mem_of_mem {lines : List ReplyLine} : ∀ line ∈ lines.map text, '\n' ∉ line.toList :=
  List.forall_mem_map.2 fun line _ => line.newline_not_mem

end ReplyLine

namespace Answers

open ReplyLine

theorem replyLines_written (lines : List ReplyLine) :
    replyLines (written lines) = lines.map text := by
  rw [replyLines, filter_written, Tool.lines_join newline_not_mem_of_mem]

/-- The end of the last line may be left out, unless it is all that there is of the line. -/
theorem replyLines_written_append (lines : List ReplyLine) {last : ReplyLine} (hlast : last.text ≠ "") :
    replyLines (written lines ++ last.text) = (lines ++ [last]).map text := by
  rw [replyLines, String.toList_append, List.filter_append, filter_text, String.ofList_append, filter_written,
    String.ofList_toList, Tool.lines_join_append newline_not_mem_of_mem last.newline_not_mem hlast,
    List.map_append, List.map_singleton]

theorem set_of_not_mem {answers : Answers} {symbol : String} (h : symbol ∉ answers.map Prod.fst)
    (text : Option String) : answers.set symbol text = answers ++ [(symbol, text)] := by
  induction answers with
  | nil => rfl
  | cons answer rest ih =>
    rw [List.map_cons, List.mem_cons, not_or] at h
    rw [set, if_neg (Ne.symm h.1), ih h.2, List.cons_append]

/-- Distinct symbols are answered one behind another. -/
theorem ofLines_eq {symbols : List String} (h : symbols.Nodup) (lines : List String) :
    ofLines symbols lines = (symbols.zip lines).map fun pair => (pair.1, ofLine? pair.1 pair.2) := by
  have hfold : ∀ answers : Answers, (∀ symbol ∈ symbols, symbol ∉ answers.map Prod.fst) →
      ((symbols.zip lines).foldl (fun (answers : Answers) pair =>
        answers.set pair.1 (ofLine? pair.1 pair.2)) answers) =
      answers ++ (symbols.zip lines).map fun pair => (pair.1, ofLine? pair.1 pair.2) := by
    induction symbols generalizing lines with
    | nil => simp
    | cons symbol symbols ih =>
      intro answers hnew
      cases lines with
      | nil => simp
      | cons line lines =>
        obtain ⟨hsymbol, hsymbols⟩ := List.nodup_cons.1 h
        obtain ⟨hfirst, hrest⟩ := List.forall_mem_cons.1 hnew
        rw [List.zip_cons_cons, List.foldl_cons, set_of_not_mem hfirst, ih hsymbols]
        · simp
        · intro other hother
          rw [List.map_append, List.mem_append, not_or]
          exact ⟨hrest other hother, by simpa using ne_of_mem_of_not_mem hother hsymbol⟩
  exact hfold [] fun _ _ => List.not_mem_nil

/-- A reply is read exactly when there are as many lines as symbols, and then each symbol is answered by the
line in its place. -/
theorem ofReply?_written {symbols : List String} (h : symbols.Nodup) (lines : List ReplyLine) :
    (ofReply? symbols (written lines) = none ↔ lines.length ≠ symbols.length) ∧
      (∀ answers, ofReply? symbols (written lines) = some answers →
        answers.map Prod.fst = symbols ∧
          ∀ (index : Nat) (symbol : String) (line : ReplyLine),
            symbols[index]? = some symbol → lines[index]? = some line → answers[index]? = some (symbol,
              if line.text ≠ "" ∧ line.text ≠ symbol then some line.text else none)) ∧
      ∀ (others : List ReplyLine) (last : ReplyLine), lines = others ++ [last] → last.text ≠ "" →
        ofReply? symbols (written others ++ last.text) = ofReply? symbols (written lines) := by
  refine ⟨?_, ?_, ?_⟩
  · rw [ofReply?_eq, replyLines_written, List.length_map]
    split <;> simp [*]
  · intro answers hread
    rw [ofReply?_eq, replyLines_written, List.length_map] at hread
    split at hread
    · next hlength =>
      rw [ofLines_eq h, Option.some.injEq] at hread
      subst hread
      refine ⟨?_, fun index symbol line hsymbol hline => ?_⟩
      · rw [List.map_map]
        exact List.map_fst_zip (by rw [List.length_map, hlength])
      · have hpair : (symbols.zip (lines.map text))[index]? = some (symbol, line.text) := by
          simp [List.getElem?_zip_eq_some, hsymbol, hline]
        rw [List.getElem?_map, hpair, Option.map_some, ofLine?]
        simp only [Bool.or_eq_true, decide_eq_true_eq, ← not_or, ite_not]
    · cases hread
  · rintro others last rfl hlast
    rw [ofReply?_eq, ofReply?_eq, replyLines_written_append others hlast, replyLines_written]

/-- A reply with empty lines in front of another one, and a line that repeats its symbol. -/
def mixed : List ReplyLine :=
  [{ text := "", ending := .returnAndLineFeed }, { text := "_Z1b", ending := .lineFeed },
    { text := "", ending := .lineFeed }, { text := "d()", ending := .returnAndLineFeed }]

theorem ofReply?_written_mixed :
    ["_Z1a", "_Z1b", "_Z1c", "_Z1d"].Nodup ∧
      (∃ answers, ofReply? ["_Z1a", "_Z1b", "_Z1c", "_Z1d"] (written mixed) = some answers ∧
        answers.map Prod.fst = ["_Z1a", "_Z1b", "_Z1c", "_Z1d"] ∧
        answers[1]? = some ("_Z1b", none) ∧ answers[3]? = some ("_Z1d", some "d()")) ∧
      ofReply? ["_Z1a", "_Z1b", "_Z1c", "_Z1d"] (written (mixed.take 3) ++ "d()") =
        ofReply? ["_Z1a", "_Z1b", "_Z1c", "_Z1d"] (written mixed) := by
  have hnodup : ["_Z1a", "_Z1b", "_Z1c", "_Z1d"].Nodup := by decide
  obtain ⟨hnone, hsome, hlast⟩ := ofReply?_written hnodup mixed
  obtain ⟨answers, hread⟩ := Option.ne_none_iff_exists'.1 fun h => hnone.1 h rfl
  obtain ⟨hkeys, hanswers⟩ := hsome answers hread
  have hsecond := hanswers 1 "_Z1b" mixed[1] rfl rfl
  have hfourth := hanswers 3 "_Z1d" mixed[3] rfl rfl
  exact ⟨hnodup, ⟨answers, hread, hkeys, hsecond.trans (by decide), hfourth.trans (by decide)⟩,
    hlast (mixed.take 3) mixed[3] rfl (by decide)⟩

end Answers

end CallGraph
