import BuildLint.Analysis.CompilerEnvironment
import BuildLint.Proofs.Text.Cutting
import BuildLint.Proofs.Text.Entries

/-!
# Proofs/Analysis/PromptOutput — reading the two variables out of a script's output

The command prompt's setup may print anything before and after the lines of the script, and the
script prints its lines with the line ends of its system.  An output is therefore a list of lines of
two kinds: those that give a variable a value, and **noise**, in which no equals sign stands.

* `PrintedLine`, `print` — the lines of an output, and the text they make.
* `lastValue` — the value that the last line for a name gives.
* `foldl_readLine_print` — what one line does to the variables, taken over all lines.
* `ofOutput_print` — reading undoes printing.
-/

namespace BuildLint

namespace CompilerEnvironment

/-! ## Outputs -/

/-- **Text on one line**: it holds no line end. -/
structure OneLine where
  text : Text
  whole : ∀ c ∈ text, c.isLineEnd = false

/-- **A line that gives a variable a value**: its name holds no equals sign, the value may. -/
structure Assignment where
  name : OneLine
  value : OneLine
  named : CodePoint.ofChar '=' ∉ name.text

namespace Assignment

def text (a : Assignment) : Text := a.name.text ++ CodePoint.ofChar '=' :: a.value.text

/-- Whether the name is one of the two that matter. -/
def isSought (a : Assignment) : Bool := a.name.text = "INCLUDE" || a.name.text = "LIB"

end Assignment

/-- **A line of an output.**  Noise may itself fall into lines. -/
inductive PrintedLine where
  | assignment (a : Assignment)
  | noise (text : Text) (h : CodePoint.ofChar '=' ∉ text)

namespace PrintedLine

def text : PrintedLine → Text
  | assignment a => a.text
  | noise text _ => text

/-- The value that a line gives a variable. -/
def valueOf? (name : Text) : PrintedLine → Option Text
  | assignment a => if a.name.text = name then some a.value.text else none
  | noise _ _ => none

/-- Whether a line gives one of the two variables that matter a value. -/
def isSought : PrintedLine → Bool
  | assignment a => a.isSought
  | noise _ _ => false

end PrintedLine

/-- How a system ends a line. -/
inductive LineEnd where
  | lineFeed
  | returnAndFeed

def LineEnd.text : LineEnd → Text
  | lineFeed => [CodePoint.ofChar '\n']
  | returnAndFeed => [CodePoint.ofChar '\r', CodePoint.ofChar '\n']

/-- **The text of an output**, line after line. -/
def print (output : List (PrintedLine × LineEnd)) : Text :=
  output.flatMap fun line => line.1.text ++ line.2.text

/-- The values that an output gives a variable, in order. -/
def values (name : Text) (output : List (PrintedLine × LineEnd)) : List Text :=
  output.filterMap fun line => line.1.valueOf? name

/-- **The value that the last line for a name gives**, empty if there is none. -/
def lastValue (name : Text) (output : List (PrintedLine × LineEnd)) : Text :=
  (values name output).getLast?.getD []

/-- **What the script prints** once the command prompt has set the two variables. -/
def scriptOutput (e : LineEnd) (headers libraries : OneLine) : Text :=
  "INCLUDE=" ++ headers.text ++ e.text ++ "LIB=" ++ libraries.text ++ e.text

/-! ## One line -/

variable {t : Text}

theorem readLine_of_not_mem (h : CodePoint.ofChar '=' ∉ t) (v : PromptVariables) :
    readLine v t = v := by
  rw [readLine, Text.cutAt?_eq_none h]

/-- **A line for a name** sets that variable and keeps the other. -/
theorem readLine_assignment (a : Assignment) (v : PromptVariables) :
    readLine v a.text =
      ⟨((PrintedLine.assignment a).valueOf? "INCLUDE").getD v.headers,
        ((PrintedLine.assignment a).valueOf? "LIB").getD v.libraries⟩ := by
  rw [readLine, Assignment.text, Text.cutAt?_append a.named]
  dsimp only [PrintedLine.valueOf?]
  by_cases hheaders : a.name.text = "INCLUDE"
  · have hlibraries : a.name.text ≠ "LIB" := by rw [hheaders]; decide
    rw [if_pos hheaders, if_pos hheaders, if_neg hlibraries]
    rfl
  · rw [if_neg hheaders, if_neg hheaders]
    split <;> rfl

/-! ## All lines -/

open Text

theorem foldl_readLine_filter (lines : List Text) (v : PromptVariables) :
    (lines.filter (· != [])).foldl readLine v = lines.foldl readLine v := by
  induction lines generalizing v with
  | nil => rfl
  | cons line lines ih =>
    cases line with
    | nil => exact ih v
    | cons c line => exact ih (readLine v (c :: line))

theorem ofOutput_eq (output : Text) :
    ofOutput output = (entries CodePoint.isLineEnd output).foldl readLine ⟨[], []⟩ := by
  rw [ofOutput, ← foldl_readLine_filter, filter_lines]

/-- A line end cuts the entries of an output in two; the one of two code points leaves an empty
piece between them, which is no entry. -/
theorem entries_append_lineEnd (t : Text) (e : LineEnd) (rest : Text) :
    entries CodePoint.isLineEnd (t ++ e.text ++ rest) =
      entries CodePoint.isLineEnd t ++ entries CodePoint.isLineEnd rest := by
  rw [List.append_assoc]
  cases e with
  | lineFeed => exact entries_append_separator isLineEnd_lineFeed t rest
  | returnAndFeed =>
    have hfeed := entries_append_separator isLineEnd_lineFeed [] rest
    exact (entries_append_separator isLineEnd_return t _).trans (congrArg (_ ++ ·) hfeed)

theorem entries_assignment (a : Assignment) :
    entries CodePoint.isLineEnd a.text = [a.text] := by
  refine entries_of_forall (fun h => ?_) fun c hc => ?_
  · exact List.cons_ne_nil _ _ (List.append_eq_nil_iff.1 h).2
  · rcases List.mem_append.1 hc with hc | hc
    · exact a.name.whole c hc
    · rcases List.mem_cons.1 hc with rfl | hc
      · decide
      · exact a.value.whole c hc

theorem foldl_readLine_of_not_mem (h : CodePoint.ofChar '=' ∉ t) (v : PromptVariables) :
    (entries CodePoint.isLineEnd t).foldl readLine v = v := by
  have hentries : ∀ entry ∈ entries CodePoint.isLineEnd t, CodePoint.ofChar '=' ∉ entry :=
    fun entry hentry hmem => h (subset_of_mem_entries hentry hmem)
  generalize entries CodePoint.isLineEnd t = lines at hentries
  induction lines with
  | nil => rfl
  | cons line lines ih =>
    obtain ⟨hline, hlines⟩ := List.forall_mem_cons.1 hentries
    rw [List.foldl_cons, readLine_of_not_mem hline]
    exact ih hlines

/-- **One line of an output.** -/
theorem foldl_readLine_line (line : PrintedLine) (v : PromptVariables) :
    (entries CodePoint.isLineEnd line.text).foldl readLine v =
      ⟨(line.valueOf? "INCLUDE").getD v.headers, (line.valueOf? "LIB").getD v.libraries⟩ := by
  cases line with
  | assignment a =>
    rw [PrintedLine.text, entries_assignment]
    exact readLine_assignment a v
  | noise text h =>
    rw [PrintedLine.text, foldl_readLine_of_not_mem h]
    rfl

/-- The last of some values, the first of which may be missing. -/
theorem getLast?_filterMap_cons {α : Type} (f : α → Option Text) (x : α) (xs : List α)
    (default : Text) : ((x :: xs).filterMap f).getLast?.getD default =
      (xs.filterMap f).getLast?.getD ((f x).getD default) := by
  rw [List.filterMap_cons]
  cases f x with
  | none => rfl
  | some value => exact congrArg (·.getD default) List.getLast?_cons

/-- **All lines of an output**, read on from some variables. -/
theorem foldl_readLine_print (output : List (PrintedLine × LineEnd)) (v : PromptVariables) :
    (entries CodePoint.isLineEnd (print output)).foldl readLine v =
      ⟨(values "INCLUDE" output).getLast?.getD v.headers,
        (values "LIB" output).getLast?.getD v.libraries⟩ := by
  induction output generalizing v with
  | nil => rfl
  | cons line output ih =>
    rw [print, List.flatMap_cons, entries_append_lineEnd, List.foldl_append, foldl_readLine_line,
      values, values, getLast?_filterMap_cons, getLast?_filterMap_cons]
    exact ih _

/-- A line that is not sought gives neither variable a value. -/
theorem values_filter_isSought {name : Text} (h : name = "INCLUDE" ∨ name = "LIB")
    (output : List (PrintedLine × LineEnd)) :
    values name (output.filter (·.1.isSought)) = values name output := by
  rw [values, values, List.filterMap_filter]
  refine List.filterMap_congr fun line _ => ?_
  obtain ⟨line, -⟩ := line
  cases line with
  | noise text hnoise => rfl
  | assignment a =>
    dsimp only [PrintedLine.isSought, PrintedLine.valueOf?, Assignment.isSought]
    by_cases hname : a.name.text = name
    · rcases h with rfl | rfl <;> simp [hname]
    · simp [hname]

theorem ofOutput_eq_lastValue (output : List (PrintedLine × LineEnd)) :
    ofOutput (print output) = ⟨lastValue "INCLUDE" output, lastValue "LIB" output⟩ := by
  rw [ofOutput_eq, foldl_readLine_print]
  rfl

/-- The line that the script prints for the headers. -/
def headersLine (headers : OneLine) : PrintedLine :=
  .assignment ⟨⟨"INCLUDE", by decide⟩, headers, by decide⟩

/-- The line that the script prints for the libraries. -/
def librariesLine (libraries : OneLine) : PrintedLine :=
  .assignment ⟨⟨"LIB", by decide⟩, libraries, by decide⟩

theorem scriptOutput_eq_print (e : LineEnd) (headers libraries : OneLine) :
    scriptOutput e headers libraries =
      print [(headersLine headers, e), (librariesLine libraries, e)] := by
  simp [scriptOutput, print, headersLine, librariesLine, PrintedLine.text, Assignment.text,
    ofString]

/-- **Reading undoes printing**: whatever lines an output has, a variable is what the last line for
its name says and empty if there is none.  So what the script prints is read as it was, and lines
for other names do not matter, wherever they stand. -/
theorem ofOutput_print (output : List (PrintedLine × LineEnd)) :
    ofOutput (print output) = ⟨lastValue "INCLUDE" output, lastValue "LIB" output⟩ ∧
      (∀ e headers libraries,
        ofOutput (scriptOutput e headers libraries) = ⟨headers.text, libraries.text⟩) ∧
      ofOutput (print (output.filter (·.1.isSought))) = ofOutput (print output) := by
  refine ⟨ofOutput_eq_lastValue output, fun e headers libraries => ?_, ?_⟩
  · rw [scriptOutput_eq_print, ofOutput_eq_lastValue]
    rfl
  · rw [ofOutput_eq_lastValue, ofOutput_eq_lastValue, lastValue, lastValue,
      values_filter_isSought (.inl rfl), values_filter_isSought (.inr rfl), lastValue, lastValue]

/-- A longer name is another name, and a value goes on behind an equals sign. -/
example : ofOutput "[setup]\r\nINCLUDE=a=b;c\nMYINCLUDE=d\r\nLIBPATH=e\n" = ⟨"a=b;c", ""⟩ := rfl

end CompilerEnvironment

end BuildLint
