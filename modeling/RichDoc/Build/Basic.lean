import RichDoc.Dom.Basic

/-!
# Building trees

Rendering needs five operations of a tree: it creates elements, texts and containers, sets
attributes and appends. It never reads a tree back, so it can build into anything that offers these
operations, such as a store of linked cells.
-/

namespace RichDoc

/-- A kind of tree that can be built. `σ` is what has been built so far, `η` names its nodes. -/
class TreeBuilder (σ : Type) (η : outParam Type) where
  /-- Create a detached element. -/
  createElement : σ → String → η × σ
  /-- Create a detached text. -/
  createText : σ → String → η × σ
  /-- Create a detached container. -/
  createFragment : σ → η × σ
  /-- Set an attribute of an element. -/
  setAttribute : σ → η → String → String → σ
  /-- Append a node to another as its last child. -/
  appendChild : σ → η → η → σ

/-- Stores of linked cells can be built. All names are HTML names. -/
instance : TreeBuilder Dom NodeId where
  createElement dom tag := dom.create (.element (.html tag) [])
  createText dom text := dom.create (.text text)
  createFragment dom := dom.create .document
  setAttribute dom id key value := dom.setAttribute (some id) (.html key) value
  appendChild dom parent child := dom.append (some parent) (some child)

end RichDoc
