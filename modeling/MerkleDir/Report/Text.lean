import MerkleDir.Report.Basic
import MerkleDir.Text.Blank

namespace MerkleDir

def lines (ls : List String) : String :=
  String.join (ls.map (· ++ "\n"))

def EntryKind.label : EntryKind → String
  | .file => "file"
  | .symlinkCopy => "symlink"
  | .followedSymlink target => "-> " ++ target.display

def EntryReport.line (entry : EntryReport) : String :=
  "  " ++ entry.digest.toHex ++ "  " ++ entry.modified ++ "  " ++ entry.name ++ "  " ++
    entry.kind.label

def DirectoryReport.heading (report : DirectoryReport) : String :=
  report.path.display ++ "  " ++ report.digest.toHex ++ "  (" ++ toString report.entryCount ++
    " entries, levels " ++ MerkleTree.showCounts report.levels ++ ")"

def DirectoryReport.text (report : DirectoryReport) : String :=
  lines (report.heading :: report.entries.map EntryReport.line ++
    report.subdirectories.map fun dir => "  " ++ dir.display ++ "/")

/-- An empty line parts the directories. -/
def scanText (reports : List DirectoryReport) : String :=
  trimEnd ("\n".intercalate (reports.map DirectoryReport.text))

namespace ChangeSet

def changeLines (changes : ChangeSet) : List String :=
  changes.modified.map ("M " ++ ·.display) ++ changes.added.map ("A " ++ ·.display) ++
    changes.removed.map ("D " ++ ·.display)

def text (changes : ChangeSet) : String :=
  trimEnd (lines changes.changeLines)

end ChangeSet

namespace DiffReport

def verdict (report : DiffReport) : String :=
  if report.identical then "identical"
  else if report.entriesIdentical then "entries identical, directory names differ"
  else
    let changes := report.changes.text
    if changes = "" then "differs" else "differs\n" ++ changes

def text (report : DiffReport) : String :=
  lines ["left   " ++ report.leftDigest.toHex ++ "  " ++ report.left.display,
    "right  " ++ report.rightDigest.toHex ++ "  " ++ report.right.display] ++ report.verdict

end DiffReport
end MerkleDir
