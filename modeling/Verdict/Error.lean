import Verdict.Query
import Verdict.Operator.Apply

/-!
What can go wrong with a rule, from its text to its place in a store.
-/
namespace Verdict

inductive Missing where
  | noContext (path : Text)
  | noValue (path : Text)
deriving DecidableEq

inductive Error where
  | parse (e : ParseError)
  | missing (m : Missing)
  | unknownOperator (token : Text)
  | mismatch (m : Mismatch)
  | ruleNotFound (name : Text)
deriving DecidableEq

namespace Missing

def message : Missing → Text
  | .noContext path => "上下文缺失或为空，无法解析 ".toList ++ path
  | .noValue path => "未提供变量 ".toList ++ path ++ " 的值".toList

end Missing

namespace Error

def message : Error → Text
  | .parse e => "规则解析失败: ".toList ++ e.message
  | .missing m => "缺少变量: ".toList ++ m.message
  | .unknownOperator token => "未知的操作符: '".toList ++ token ++ ['\'']
  | .mismatch m =>
    "类型不匹配: 操作符 ".toList ++ m.operator.write ++ " 不支持 ".toList ++ m.left.name ++
      " 与 ".toList ++ m.right.name
  | .ruleNotFound name => "规则未找到: ".toList ++ name

def isMissing : Error → Bool
  | .missing _ => true
  | _ => false

end Error

def Operator.read (token : Text) : Except Error Operator :=
  match ofToken? token with
  | some op => .ok op
  | none => .error (.unknownOperator token)

end Verdict
