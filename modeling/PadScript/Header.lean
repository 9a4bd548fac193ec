import PadScript.Binary64
import PadScript.Text.Lines
import PadScript.Timeline

/-!
# C headers

A compiled timeline as a C header for the firmware of a controller board.
-/

namespace PadScript.Header

/-- The boards that headers are written for. -/
inductive Platform where
  | avr
  | esp32s3
  | pico
  deriving DecidableEq, Repr

/-- How a header is written. -/
structure Options where
  looped : Bool
  platform : Platform
  deriving DecidableEq, Repr

/-- Whether the frames are kept in program memory, and must be copied from there. -/
def Platform.usesProgramMemory : Platform → Bool
  | .avr => true
  | .esp32s3 | .pico => false

/-- The duration in seconds. -/
def seconds (duration : Millis) : Text :=
  ((Binary64.ofRatio duration.toNat 1000).getD .zero).toTextTwoPlaces

/-- The bytes of a report as hexadecimal constants. -/
def packetBytes (packet : Packet) : Text :=
  Text.join ", ".toList (packet.toBytes.map fun b => '0' :: 'x' :: Text.ofByteHex b)

/-- The row of a frame in the table, without a comma. -/
def row (frame : Frame) : Text :=
  "    \x7b ".toList ++ Text.ofNat frame.time.toNat ++ ", \x7b ".toList ++
    packetBytes frame.packet ++ " \x7d \x7d".toList

/-- The rows of the table, with a comma after each but the last. -/
def rows : List Frame → List Text
  | [] => []
  | [frame] => [row frame]
  | frame :: next :: rest => (row frame ++ [',']) :: rows (next :: rest)

/-- The lines above the table. -/
def preamble (timeline : Timeline) (options : Options) : List Text :=
  ["// Auto-generated from macro source".toList,
    "// DO NOT EDIT MANUALLY".toList,
    [],
    "#ifndef EMBEDDED_MACRO_H".toList,
    "#define EMBEDDED_MACRO_H".toList,
    [],
    "#include <stdint.h>".toList,
    "#include <string.h>".toList] ++
  (if options.platform.usesProgramMemory then ["#include <avr/pgmspace.h>".toList] else []) ++
  [[],
    "// Macro configuration".toList,
    "#define EMBEDDED_MACRO_ENABLED 1".toList,
    "#define EMBEDDED_MACRO_LOOP ".toList ++ [if options.looped then '1' else '0'],
    "#define EMBEDDED_MACRO_FRAME_COUNT ".toList ++ Text.ofNat timeline.size,
    [],
    "// Macro duration: ".toList ++ seconds timeline.duration ++ " seconds (".toList ++
      Text.ofNat timeline.size ++ " frames)".toList,
    [],
    "typedef struct \x7b".toList,
    "    uint32_t timestamp_ms;  // Timestamp in milliseconds".toList,
    "    uint8_t packet[8];      // 8-byte input report".toList,
    "\x7d EmbeddedMacroFrame_t;".toList,
    []]

/-- The line that opens the table, and the comment above it. -/
def opening (platform : Platform) : List Text :=
  if platform.usesProgramMemory then
    ["// Macro frames stored in program memory (PROGMEM)".toList,
      "const EmbeddedMacroFrame_t embedded_macro_frames[] PROGMEM = \x7b".toList]
  else
    ["// Macro frames stored in flash".toList,
      "static const EmbeddedMacroFrame_t embedded_macro_frames[] = \x7b".toList]

/-- The lines below the table. -/
def closing (platform : Platform) : List Text :=
  ["\x7d;".toList,
    [],
    "#define MACRO_READ_FRAME(index, dest) ".toList ++
      (if platform.usesProgramMemory then "memcpy_P".toList else "memcpy".toList) ++
      "(dest, &embedded_macro_frames[index], sizeof(EmbeddedMacroFrame_t))".toList,
    [],
    "#endif // EMBEDDED_MACRO_H".toList]

/-- The lines of a header. -/
def lines (timeline : Timeline) (options : Options) : List Text :=
  preamble timeline options ++ opening options.platform ++ rows timeline.frames ++
    closing options.platform

/-- A timeline as a C header. -/
def render (timeline : Timeline) (options : Options) : Text :=
  Text.join ['\n'] (lines timeline options) ++ ['\n']

end PadScript.Header
