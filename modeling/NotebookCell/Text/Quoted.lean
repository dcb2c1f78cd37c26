import NotebookCell.Text.Printable

/-!
# Quoted texts

Texts and characters as messages quote them: between two marks, with escapes for the mark, for the
backslash and for what is not printable.
-/

namespace NotebookCell

def quotedChar (mark c : Char) : List Char :=
  match c with
  | '\\' => ['\\', '\\']
  | '\n' => ['\\', 'n']
  | '\r' => ['\\', 'r']
  | '\t' => ['\\', 't']
  | '\x00' => ['\\', '0']
  | c =>
    if c = mark then ['\\', c]
    else if isPrintable c then [c]
    else "\\u\x7b".toList ++ Nat.toDigits 16 c.toNat ++ ['\x7d']

def quoted (mark : Char) (text : String) : String :=
  String.ofList (mark :: text.toList.flatMap (quotedChar mark) ++ [mark])

end NotebookCell
