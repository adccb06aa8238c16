/-!
The field numbers of every message of the format, one namespace a message, and the shift of the
coarse grid on which road points are stored. Decoders match on these numbers and the written form
uses them, so the two sides name a field alike.
-/

namespace RoadAtlas

namespace Format

/-- Road points are stored without this many low bits. -/
def coordinateShift : UInt32 := 5

/-! ### The container -/

namespace Index

@[match_pattern] def version : Nat := 1
@[match_pattern] def transport : Nat := 4
@[match_pattern] def map : Nat := 6
@[match_pattern] def address : Nat := 7
@[match_pattern] def poi : Nat := 8
@[match_pattern] def routing : Nat := 9
@[match_pattern] def created : Nat := 18
@[match_pattern] def confirmation : Nat := 32

end Index

/-! ### Routing sections -/

namespace Section

@[match_pattern] def name : Nat := 1
@[match_pattern] def rule : Nat := 2
@[match_pattern] def box : Nat := 3
@[match_pattern] def basemapBox : Nat := 4
@[match_pattern] def block : Nat := 5
@[match_pattern] def border : Nat := 7
@[match_pattern] def basemapBorder : Nat := 8

end Section

namespace Rule

@[match_pattern] def tag : Nat := 3
@[match_pattern] def value : Nat := 5
@[match_pattern] def id : Nat := 7

end Rule

namespace Box

@[match_pattern] def left : Nat := 1
@[match_pattern] def right : Nat := 2
@[match_pattern] def top : Nat := 3
@[match_pattern] def bottom : Nat := 4
@[match_pattern] def shift : Nat := 5
@[match_pattern] def child : Nat := 7

end Box

/-! ### Data blocks -/

namespace Block

@[match_pattern] def idTable : Nat := 5
@[match_pattern] def road : Nat := 6
@[match_pattern] def restriction : Nat := 7
@[match_pattern] def stringTable : Nat := 8

end Block

namespace IdTable

@[match_pattern] def delta : Nat := 1

end IdTable

namespace Restriction

@[match_pattern] def kind : Nat := 1
@[match_pattern] def source : Nat := 2
@[match_pattern] def target : Nat := 3

end Restriction

namespace Road

@[match_pattern] def points : Nat := 1
@[match_pattern] def pointTypes : Nat := 4
@[match_pattern] def pointNames : Nat := 5
@[match_pattern] def types : Nat := 7
@[match_pattern] def extraTypes : Nat := 9
@[match_pattern] def number : Nat := 12
@[match_pattern] def names : Nat := 14

end Road

/-! ### Borders -/

namespace Border

@[match_pattern] def line : Nat := 1
@[match_pattern] def block : Nat := 5

end Border

namespace BorderLine

@[match_pattern] def x : Nat := 1
@[match_pattern] def y : Nat := 2
@[match_pattern] def toX : Nat := 3
@[match_pattern] def toY : Nat := 4
@[match_pattern] def shift : Nat := 7

end BorderLine

namespace BorderBlock

@[match_pattern] def x : Nat := 1
@[match_pattern] def y : Nat := 2
@[match_pattern] def baseId : Nat := 3
@[match_pattern] def point : Nat := 5

end BorderBlock

namespace BorderPoint

@[match_pattern] def dx : Nat := 1
@[match_pattern] def dy : Nat := 2
@[match_pattern] def idDelta : Nat := 3
@[match_pattern] def direction : Nat := 4
@[match_pattern] def types : Nat := 7

end BorderPoint

end Format

end RoadAtlas
