import ShapeMatch.Yaml.Tag

/-!
# YAML tokens

The pieces that YAML text is cut into. Indentation shows as tokens that open and close block
collections, and a key that carries no mark of its own is preceded by a key token.
-/

namespace ShapeMatch.Yaml

/-- A token of YAML text. -/
inductive Token where
  | versionDirective (major minor : Nat)
  | tagDirective (handle : String) (expansion : Tag)
  | documentStart
  | documentEnd
  | blockSequenceStart
  | blockMappingStart
  | blockEnd
  | flowSequenceStart
  | flowSequenceEnd
  | flowMappingStart
  | flowMappingEnd
  | blockEntry
  | flowEntry
  | key
  | value
  | alias (name : String)
  | anchor (name : String)
  | tag (handle : String) (suffix : Tag)
  | scalar (text : String) (plain : Bool)
  | streamEnd
deriving DecidableEq, Repr

end ShapeMatch.Yaml
