/-
Module: ConceptualGraph.Proofs.Token.Quotation
Purpose: A text between quotes is scanned as that text, whatever it holds and whatever follows it.
Main exports: Scan.prepend, Scan.onward, Scan.onward_of_opens, Scan.onward_quoted
-/
import ConceptualGraph.Proofs.Token.Lexeme

namespace ConceptualGraph.Scan

variable {form : Notation} {signAllowed : Bool}

/-- A scan with more tokens before it. -/
def prepend (located : List Located) (later : Scan) : Scan :=
  { later with tokens := located ++ later.tokens }

/-- The scan of a text that begins at a place; from the first place it is `ofText`.  A number with a
sign may begin it if one may follow what stood before. -/
def onward (form : Notation) (position : Position) (signAllowed : Bool)
    (source : List Char) : Scan :=
  scanFrom form source.length position signAllowed source

/-- After the first token of a text, scanning goes on with what follows its spelling. -/
theorem onward_of_opens {position : Position} {spelled rest : List Char} {token : Token}
    (opens : Opens form signAllowed spelled rest token) :
    onward form position signAllowed (spelled ++ rest) =
      prepend [⟨token, ⟨position, position.advance spelled⟩⟩]
        (onward form (position.advance spelled) (signAfter signAllowed token) rest) := by
  obtain ⟨char, front, text, rfl, found⟩ := opens
  have taken : text = char :: front := by
    obtain ⟨split, -⟩ := covers_step char (front ++ rest) _ found
    exact (List.append_cancel_right (by simpa using split)).symm
  subst taken
  have enough : rest.length ≤ (front ++ rest).length := by simp
  simp only [onward, List.cons_append, List.length_cons, scanFrom, found]
  rw [scanFrom_of_enough enough (Nat.le_refl _)]
  rfl

/-- A text between quotes is scanned first, as a token whose value is the text: a string between
double quotes, a name between single ones.  Scanning goes on right after the closing quote.  This
holds wherever the quotes stand, and whatever follows them. -/
theorem onward_quoted (form : Notation) (position : Position) (signAllowed : Bool) (text : String)
    (rest : List Char) :
    onward form position signAllowed (Text.quoted '"' text.toList ++ rest) =
      prepend [⟨.str text, ⟨position, position.advance (Text.quoted '"' text.toList)⟩⟩]
        (onward form (position.advance (Text.quoted '"' text.toList)) false rest) ∧
    onward form position signAllowed (Text.quoted '\'' text.toList ++ rest) =
      prepend [⟨.name text, ⟨position, position.advance (Text.quoted '\'' text.toList)⟩⟩]
        (onward form (position.advance (Text.quoted '\'' text.toList)) false rest) := by
  constructor
  · have opened : Opens form signAllowed (Text.quoted '"' text.toList) rest (.str text) :=
      opens_quoted (Or.inl rfl) fun source => by simp [token]
    exact onward_of_opens opened
  · have opened : Opens form signAllowed (Text.quoted '\'' text.toList) rest (.name text) :=
      opens_quoted (Or.inr rfl) fun source => by simp [token]
    exact onward_of_opens opened

/-- Control characters, both quotes and a backslash at the end, before a text that opens a quote. -/
example :
    (ofText .cgif "'a\\'\\n\"\\\\'\"b\"").tokens.map Located.token =
      [.name "a'\n\"\\", .str "b"] := by
  decide +kernel

end ConceptualGraph.Scan
