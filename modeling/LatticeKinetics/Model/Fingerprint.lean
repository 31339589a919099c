import LatticeKinetics.Model.Basic

/-! A model is identified by a 64-bit fingerprint of everything that matters to the kernel. Its
parts are written to a list of bytes, each text behind its length, and the bytes are folded into one
word. Cell sizes and site positions do not take part. -/

namespace LatticeKinetics

namespace Fingerprint

def basis : UInt64 := 0xcbf29ce484222325

def prime : UInt64 := 0x00000100000001b3

def fold (bytes : List UInt8) : UInt64 :=
  bytes.foldl (fun hash byte => (hash ^^^ byte.toUInt64) * prime) basis

/-- Four bytes, least significant first; higher bits are dropped. -/
def word (n : Int) : List UInt8 :=
  let w := (n % 4294967296).toNat
  [w, w / 256, w / 65536, w / 16777216].map UInt8.ofNat

def encode (s : String) : List UInt8 :=
  s.toList.flatMap String.utf8EncodeChar

def text (s : String) : List UInt8 :=
  word (encode s).length ++ encode s

def placement (p : Placement) : List UInt8 :=
  text p.coord.render ++ text p.species

def placements (ps : List Placement) : List UInt8 :=
  word ps.length ++ ps.flatMap placement

def layer (l : Layer) : List UInt8 :=
  text l.name ++ word l.sites.length ++ l.siteNames.flatMap text

def conversion (c : Conversion) : List UInt8 :=
  text c.source ++ text c.target ++ c.shift.flatMap word

def process (p : Process) : List UInt8 :=
  text p.name ++ text p.rateConstant ++ placements p.conditions ++ placements p.actions

end Fingerprint

def Model.fingerprintBytes (m : Model) : List UInt8 :=
  Fingerprint.word m.dimension ++
    m.species.flatMap Fingerprint.text ++
    Fingerprint.text m.defaultSpecies ++
    m.layers.flatMap Fingerprint.layer ++
    m.conversions.entries.flatMap Fingerprint.conversion ++
    m.processes.flatMap Fingerprint.process

def Model.fingerprint (m : Model) : UInt64 :=
  Fingerprint.fold m.fingerprintBytes

end LatticeKinetics
