import MerkleDir.Command.Program
import MerkleDir.FileSystem.Image

open MerkleDir in
def main (arguments : List String) : IO UInt32 := do
  let line ← (← IO.getStdin).getLine
  match Image.parse? line with
  | none =>
    IO.eprintln "error: no image of a file system on standard input"
    pure 1
  | some image =>
    let outcome := Program.run .blake3 image.now image.environment image.fs []
      (arguments.map Utf8.encode)
    IO.print outcome.stdout
    IO.eprint outcome.stderr
    pure (UInt32.ofNat outcome.exitCode)
