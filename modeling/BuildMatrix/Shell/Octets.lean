import BuildMatrix.Text.Utf8

/-!
# Texts of a shell

A shell does not know the encoding of the texts that it handles. Here such a text has one character
for each byte, the one with the number of the byte, so every sequence of bytes is a text and the
characters that have a meaning to the shell are the usual ones.
-/

namespace BuildMatrix.Shell

def charsOfBytes (bytes : Bytes) : List Char := bytes.map fun b => Char.ofNat b.toNat

def bytesOfChars (chars : List Char) : Bytes := chars.map fun c => UInt8.ofNat c.toNat

def ofText (text : String) : String := String.ofList (charsOfBytes (Utf8.encode text))

def toText (s : String) : String := Utf8.decodeLossy (bytesOfChars s.toList)

end BuildMatrix.Shell
