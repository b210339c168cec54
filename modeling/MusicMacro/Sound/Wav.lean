/-!
# WAV files

Rendered sound is written as a file of 16-bit samples. One or two channels take the plain header of 44 bytes, more of
them the extensible one of 68.

* `Wav.quantize` : a sample as a 16-bit integer;
* `Wav.header` : the bytes before the first sample;
* `Wav.encode` : the bytes of a whole file.
-/

namespace MusicMacro.Wav

/-- The lowest `count` bytes of a number, the lowest first. -/
def littleEndian : Nat → Nat → List UInt8
  | 0, _ => []
  | count + 1, n => UInt8.ofNat (n % 256) :: littleEndian count (n / 256)

def tag (name : String) : List UInt8 := name.toUTF8.toList

/-- A sample as a 16-bit integer: cut to the range from -1 to 1, scaled and cut at the point; an undefined one is
zero. -/
def quantize (s : Float32) : Int16 :=
  let cut : Float32 := if s < -1.0 then -1.0 else if 1.0 < s then 1.0 else s
  (cut * 32767.0).toInt16

/-- The loudspeakers of the channels, one bit each; there are names for eighteen. -/
def channelMask (channels : Nat) : Nat := Nat.pow 2 (min channels 18) - 1

/-- The identifier of plain samples in an extensible header. -/
def plainSamples : List UInt8 :=
  [0x01, 0x00, 0x00, 0x00, 0x00, 0x00, 0x10, 0x00, 0x80, 0x00, 0x00, 0xaa, 0x00, 0x38, 0x9b, 0x71]

/-- The bytes of a second, as four bytes hold them. -/
def byteRate (rate channels : Nat) : Nat := rate * 2 * channels % Nat.pow 2 32

/-- How the samples are laid out, in the words that both headers begin with. The size of a frame is what the byte rate
says of it. -/
def layout (code rate channels : Nat) : List UInt8 :=
  littleEndian 2 code ++ littleEndian 2 channels ++ littleEndian 4 rate ++ littleEndian 4 (byteRate rate channels)
    ++ littleEndian 2 (byteRate rate channels / rate) ++ littleEndian 2 16

/-- The part of the file that describes its samples. -/
def format (rate channels : Nat) : List UInt8 :=
  if channels ≤ 2 then littleEndian 4 16 ++ layout 1 rate channels
  else
    littleEndian 4 40 ++ layout 0xfffe rate channels ++ littleEndian 2 22 ++ littleEndian 2 16
      ++ littleEndian 4 (channelMask channels) ++ plainSamples

def header (rate channels samples : Nat) : List UInt8 :=
  let description := tag "WAVE" ++ tag "fmt " ++ format rate channels ++ tag "data"
  let dataSize := 2 * samples
  tag "RIFF" ++ littleEndian 4 (description.length + 4 + dataSize) ++ description ++ littleEndian 4 dataSize

def sampleBytes (s : Int16) : List UInt8 := littleEndian 2 s.toUInt16.toNat

def encode (rate channels : Nat) (samples : List Float32) : List UInt8 :=
  header rate channels samples.length ++ samples.flatMap fun s => sampleBytes (quantize s)

end MusicMacro.Wav
