import RoadAtlas.Network.Border
import RoadAtlas.Proofs.Network.Locality

/-!
What the decoders of border lines and border points look at: the region they are in.

* `BorderLine.readAll_local`: the headers of the lines;
* `BorderTrail.decoder_local`: the points of a line.
-/

namespace RoadAtlas

open Decoder

namespace BorderLine

lemma step_local (start : ℕ) (t : Tag) (line : BorderLine) : (step start t line).Local := by
  rw [step]
  split
  · exact varint32_local.bind fun _ => pure_local _
  · exact varint32_local.bind fun _ => pure_local _
  · exact varint32_local.bind fun _ => pure_local _
  · exact varint32_local.bind fun _ => pure_local _
  · exact be32_local.bind fun _ => pure_local _
  · exact (skipField_local t).bind fun _ => pure_local _

lemma decoder_local : decoder.Local :=
  position_local.bind fun start => (fields_local (step_local start)).sized

lemma boxStep_local (t : Tag) (lines : Array BorderLine) : (boxStep t lines).Local := by
  rw [boxStep]
  split
  · exact decoder_local.bind fun _ => pure_local _
  · exact (skipField_local t).bind fun _ => pure_local _

lemma readAll_local : readAll.Local :=
  Local.map (fun _ => fieldsUntil_localAt fun t lines c _ => boxStep_local t lines c) Prod.fst

end BorderLine

namespace BorderRecord

lemma step_local (t : Tag) (r : BorderRecord) : (step t r).Local := by
  rw [step]
  split
  · exact sint32_local.bind fun _ => pure_local _
  · exact sint32_local.bind fun _ => pure_local _
  · exact varint_local.bind fun _ => pure_local _
  · exact bool_local.bind fun _ => pure_local _
  · exact packed_local.bind fun _ => pure_local _
  · exact (skipField_local t).bind fun _ => pure_local _

lemma decoder_local : decoder.Local := (fields_local step_local).sized

end BorderRecord

namespace BorderTrail

lemma step_local (sectionId : ℕ) (query : Option Area) (t : Tag) (trail : BorderTrail) :
    (step sectionId query t trail).Local := by
  rw [step]
  split
  · exact varint32_local.bind fun _ => pure_local _
  · exact varint32_local.bind fun _ => pure_local _
  · exact varint_local.bind fun _ => pure_local _
  · exact BorderRecord.decoder_local.bind fun _ => ofExcept_local _
  · exact (skipField_local t).bind fun _ => pure_local _

lemma decoder_local (sectionId : ℕ) (query : Option Area) : (decoder sectionId query).Local :=
  (fields_local (step_local sectionId query)).sized.map points

end BorderTrail

end RoadAtlas
