/-!
# Files

What a host answers when a file is to be read: its bytes, or the reason why there are none. Every
path may be asked for, relative to some directory or not, and nothing ties the answers for different
paths together.
-/

namespace LiveScene

/-- The files of a host. -/
structure Files where
  /-- the bytes of the file at a path, or why they cannot be read -/
  read : String → Except String (List UInt8)

/-- A host on which there is no file at all. -/
def Files.none : Files := ⟨fun _ => .error "No such file or directory (os error 2)"⟩

end LiveScene
