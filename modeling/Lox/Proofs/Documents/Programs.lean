import Lox.Proofs.Documents.Trees
import Lox.Proofs.Grammar.Soundness
import Lox.Proofs.Scanning.Rescanning

/-!
# Programs as documents

The numbers of a parsed tree were scanned, so the document of a program tells its tree: two sources are
written as one compact text if they were read as the same statements.
-/

namespace Lox

/-! ## Scanned numbers -/

theorem Number.nearestMagnitude_le (numerator denominator : Nat) :
    nearestMagnitude numerator denominator ≤ infinityMagnitude := by
  unfold nearestMagnitude
  dsimp only
  repeat' split
  all_goals omega

theorem Number.isScanned_ofDecimal (lexeme : String) (digits places : Nat) :
    (Token.Kind.number lexeme (ofDecimal digits places)).IsScanned := by
  have bound : infinityMagnitude < Nat.pow 2 63 := by decide
  have finite := nearestMagnitude_le (digits * unitsPerOne) (Nat.pow 10 places)
  have small := Nat.lt_of_le_of_lt finite bound
  exact ⟨isNegative_ofMagnitude false small, (magnitude_ofMagnitude false small).symm ▸ finite⟩

namespace Scan

variable {kind : Token.Kind}

theorem NumberCut.isScanned {cut : Cut} (number : NumberCut cut) (token : cut.piece = .token kind) :
    kind.IsScanned := by
  cases number <;> cases token <;> exact Number.isScanned_ofDecimal _ _ _

theorem isScanned_firstCut {c : Char} {after : List Char} (token : (firstCut c after).piece = .token kind) :
    kind.IsScanned := by
  unfold firstCut at token
  split at token
  · cases token
  split at token
  · cases token
  split at token
  · unfold textLiteral at token
    split at token <;> cases token
    trivial
  split at token
  · exact (numberLiteral_cases _).isScanned token
  split at token
  · cases token
    split <;> trivial
  split at token
  · unfold symbol at token
    split at token <;> cases token <;> trivial
  · cases token

theorem isScanned_of_mem_tokens {source : String} {token : Token} (member : token ∈ tokens source) :
    token.kind.IsScanned := by
  have listed := List.mem_map_of_mem (f := Token.kind) member
  rw [kinds_tokens] at listed
  obtain found | last := List.mem_append.mp listed
  · obtain ⟨c, inner, -, cut⟩ := standsAlone_of_mem_kinds found
    exact isScanned_firstCut (congrArg Cut.piece cut)
  · rw [List.mem_singleton.mp last]
    trivial

end Scan

/-- Every number in a parsed tree was scanned. -/
theorem scanned_parse (source : String) :
    Scanned (Stmt.writtenEach (Program.parse (Scan.tokens source)).statements) := by
  intro kind member
  cases kind with
  | number lexeme value =>
    obtain ⟨token, there, written, spelled⟩ := Program.numbered_parse member
    have scanned := Scan.isScanned_of_mem_tokens there
    rw [spelled] at scanned
    exact scanned
  | _ => trivial

/-! ## Sources -/

/-- The statements of a source as one document. -/
def Program.document (source : String) : Json :=
  .array (Stmt.documents (Program.parse (Scan.tokens source)).statements)

/-- The compact text of a source's statements tells the statements, with all their names, lines, operators
and constants. -/
theorem Program.compact_document_eq_iff (source other : String) :
    (document source).compact = (document other).compact ↔
      (parse (Scan.tokens source)).statements = (parse (Scan.tokens other)).statements := by
  constructor
  · intro same
    have alike := Json.array.inj (Json.legible_eq_of_compact same)
    exact Stmt.documents_inj _ _ (fun _ => Stmt.scanned_of_mem (scanned_parse source))
      (fun _ => Stmt.scanned_of_mem (scanned_parse other)) alike
  · intro same
    rw [document, document, same]

end Lox
