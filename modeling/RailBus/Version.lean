/-! # The master's version

Units ask the master for its version. Some older units complain about versions below 2.4.0, so a
lower version is reported as 2.4.0 (`Version.reported`); versions compare number by number, major
first. On the wire each number is cut to seven bits (`Version.toData`).
-/

namespace RailBus

/-- A version triplet. -/
structure Version where
  major : UInt8
  minor : UInt8
  patch : UInt8
  deriving DecidableEq, Repr

namespace Version

/-- The lowest version every unit accepts. -/
def minimum : Version := ⟨2, 4, 0⟩

/-- Whether one version comes before another, major number first. -/
def before (left right : Version) : Bool :=
  left.major < right.major
    || (left.major == right.major
      && (left.minor < right.minor || (left.minor == right.minor && left.patch < right.patch)))

/-- **The version told to units**: never below the minimum. -/
def reported (version : Version) : Version :=
  if version.before minimum then minimum else version

/-- The three numbers as 7-bit data bytes. -/
def toData (version : Version) : List UInt8 :=
  [version.major &&& 0x7f, version.minor &&& 0x7f, version.patch &&& 0x7f]

/-- The version written with dots. -/
def display (version : Version) : String :=
  toString version.major.toNat ++ "." ++ toString version.minor.toNat ++ "."
    ++ toString version.patch.toNat

end Version

end RailBus
