import NetplanEditor.Yaml.Fault

/-!
The tokens of the data language.

Indentation is made explicit: where a block collection starts and ends there is a token for it. A
key that is written without a question mark has a token in front of it all the same.
-/

namespace NetplanEditor.Yaml

/-- How a scalar is written, as far as its meaning depends on it. -/
inductive ScalarForm
  /-- Without quotes, so that it can mean something other than a text. -/
  | plain
  | literal
  | quoted
  deriving DecidableEq, Repr

inductive Token
  | streamEnd
  | versionDirective (major minor : Nat)
  | tagDirective (handle replacement : String)
  | documentStart
  | documentEnd
  | blockSequenceStart
  | blockMappingStart
  | blockEnd
  | flowSequenceStart
  | flowSequenceEnd
  | flowMappingStart
  | flowMappingEnd
  | blockEntry
  | flowEntry
  | key
  | value
  | alias (name : String)
  | anchor (name : String)
  /-- A tag in two parts: the handle, which stands for a text declared elsewhere, and the rest. -/
  | tag (handle suffix : String)
  | scalar (form : ScalarForm) (text : String)
  deriving DecidableEq, Repr

structure TokenStream where
  tokens : List Token
  /-- What stopped the reading, unless it came to the end of the text. -/
  fault : Option Fault
  deriving DecidableEq, Repr

end NetplanEditor.Yaml
