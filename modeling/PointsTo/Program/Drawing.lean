import PointsTo.Dot
import PointsTo.Program.Basic

/-!
# Drawings of the class hierarchy

The class hierarchy as dot text: classes are boxes, interfaces faded boxes and phantom classes bare
names; `implements` links are dashed.
-/

namespace PointsTo

def Class.dotAttributes (c : Class) : String :=
  if !c.isDefined then "color=black,shape=none"
  else if c.isInterface then "color=#00000088,shape=box"
  else "color=black,shape=box"

def LinkKind.dotAttributes : LinkKind → String
  | .extends => "arrowType=empty,style=solid"
  | .implements => "arrowType=empty,style=dashed"

/-- The class hierarchy as dot text: classes in order, then links in order. -/
def Program.hierarchyDot (p : Program) : String :=
  "digraph \x7b\n"
    ++ String.join (p.classes.toList.zipIdx.map fun c => Dot.node c.2 c.1.name c.1.dotAttributes)
    ++ String.join (p.links.toList.map fun l =>
      Dot.edge l.child.idx l.parent.idx l.kind.dotAttributes)
    ++ "\x7d\n"

end PointsTo
