import PadScript.Symbol
import PadScript.Text.Lines
import PadScript.Timeline

/-!
# Tables for people

A timeline as a table with one row a frame, with the names of the inputs.
-/

namespace PadScript.Inspect

/-- The names of the held buttons. -/
def buttonsText (packet : Packet) : Text :=
  match Symbol.buttonNames packet.buttons with
  | [] => ['-']
  | names => Text.join ['+'] names

/-- The name of the direction, or the byte after a question mark. -/
def directionText (packet : Packet) : Text :=
  (Symbol.directionName packet.dpad).getD ('?' :: Text.ofNat packet.dpad.toNat)

/-- The coordinates of a stick. -/
def stickText (position : StickPosition) : Text :=
  Text.padLeft 3 (Text.ofNat position.x.toNat) ++ ' ' ::
    Text.padLeft 3 (Text.ofNat position.y.toNat)

/-- The row of a frame. -/
def row (frame : Frame) : Text :=
  Text.join " | ".toList
    [Text.padLeft 8 (Text.ofNat frame.time.toNat), Text.padRight 20 (buttonsText frame.packet),
      Text.padRight 9 (directionText frame.packet), stickText frame.packet.left,
      stickText frame.packet.right]

/-- The lines above the rows. -/
def heading (timeline : Timeline) (looped : Bool) : List Text :=
  ["Macro: ".toList ++ Text.ofNat timeline.size ++ " frames, ".toList ++
      Text.ofNat timeline.duration.toNat ++ " ms total (".toList ++
      (if looped then "loops".toList else "plays once".toList) ++ ")".toList,
    "Time(ms) | Buttons              | DPad      | LX  LY  | RX  RY".toList,
    "---------|----------------------|-----------|---------|--------".toList]

/-- The lines on the frame that is sent at a time. -/
def moment (timeline : Timeline) (looped : Bool) (time : Millis) : List Text :=
  let frame := timeline.frameAt time looped
  [[],
    "At ".toList ++ Text.ofNat time.toNat ++ " ms: frame @".toList ++
      Text.ofNat frame.time.toNat ++ " ms".toList,
    row frame]

/-- The table of a timeline, with the frame at a time if one is given. -/
def render (timeline : Timeline) (looped : Bool) (time? : Option Millis) : Text :=
  let lines := heading timeline looped ++ timeline.frames.map row ++
    (time?.map (moment timeline looped)).getD []
  lines.flatMap (· ++ ['\n'])

/-- The counts of a timeline. -/
def summary (timeline : Timeline) : Text :=
  "frames=".toList ++ Text.ofNat timeline.size ++ "\ntotal_duration_ms=".toList ++
    Text.ofNat timeline.duration.toNat ++ "\nends_neutral=".toList ++
    (if timeline.last.packet.isNeutral then "true\n".toList else "false\n".toList)

end PadScript.Inspect
