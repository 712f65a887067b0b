import Verdict.Text
import Verdict.Text.Hidden

/-!
Texts between double quotes, as they are shown in messages for the maintainer of a rule set. A
single quote stands as it is.
-/
namespace Verdict.Text

def shown (c : Char) : Text :=
  if c = '"' then ['\\', '"']
  else if c = '\\' then ['\\', '\\']
  else if c = '\n' then ['\\', 'n']
  else if c = '\r' then ['\\', 'r']
  else if c = '\t' then ['\\', 't']
  else if c = '\x00' then ['\\', '0']
  else if isHidden c then '\\' :: 'u' :: '\x7b' :: (Nat.toDigits 16 c.toNat ++ ['\x7d'])
  else [c]

def quoted (t : Text) : Text := '"' :: (t.flatMap shown ++ ['"'])

end Verdict.Text
