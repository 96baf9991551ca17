import GedcomGrammar.CommandLine.FileTree
import GedcomGrammar.Main
import GedcomGrammar.Meaning
import GedcomGrammar.References
import GedcomGrammar.Session
import GedcomGrammar.Spacing
import GedcomGrammar.Block
import GedcomGrammar.Catalog
import GedcomGrammar.Proofs.Component.Scanner
import GedcomGrammar.Proofs.Expansion.Caps
import GedcomGrammar.Proofs.Expansion.Grounded
import GedcomGrammar.Proofs.Pattern.Meaning
import GedcomGrammar.Proofs.Keyed.Insertions
import GedcomGrammar.Proofs.Schema.RoundTrip
import GedcomGrammar.Proofs.Schema.Declarations
import GedcomGrammar.Proofs.Schema.Union
import GedcomGrammar.Proofs.Schema.Refusals
import GedcomGrammar.Proofs.Schema.Closing
import GedcomGrammar.Proofs.Schema.Spacing
import GedcomGrammar.Proofs.Schema.Strands
import GedcomGrammar.Proofs.Catalog.Orderly
import GedcomGrammar.Proofs.Catalog.Touches
import GedcomGrammar.Proofs.Session.Answers
import GedcomGrammar.Proofs.Validation.Agreement
import GedcomGrammar.Proofs.Validation.Depth
import GedcomGrammar.Proofs.Validation.FirstMatch
import GedcomGrammar.Proofs.Validation.Leaves
import GedcomGrammar.Proofs.Validation.PlainText
import GedcomGrammar.Proofs.Validation.Reach
import GedcomGrammar.Proofs.Validation.Strict
import GedcomGrammar.Proofs.Row.Kept
import GedcomGrammar.Proofs.Row.Marks
import GedcomGrammar.Proofs.CommandLine.Effects
import GedcomGrammar.Proofs.CommandLine.Codes
import GedcomGrammar.Proofs.Schema.Terms
import GedcomGrammar.Proofs.Primitive.Contents
import GedcomGrammar.Proofs.Structure.Contents
import GedcomGrammar.Heading
import GedcomGrammar.Proofs.Primitive.Heading
import GedcomGrammar.Proofs.Schema.Headers
import GedcomGrammar.Proofs.CommandLine.Readings
import GedcomGrammar.Proofs.Row.Spelling
