import Flowstep.Script.Error

/-!
Summaries of failures for the people who run a flow, in their language.
-/
namespace Flowstep.Script

inductive Locale where
  | en
  | zh
deriving DecidableEq, Repr, Inhabited

def Locale.tag : Locale → String
  | .en => "en"
  | .zh => "zh"

def Locale.ofTag? : String → Option Locale
  | "en" => some .en
  | "zh" => some .zh
  | _ => none

def ErrorKind.english : ErrorKind → String
  | .zeroDivision => "Numeric error: division by zero"
  | .type issue => "Type error: " ++ issue.message
  | .index t => "Index error: the " ++ t ++ " index is out of range"
  | .key k => "Key error: key '" ++ k ++ "' does not exist"
  | .attribute t a => "Attribute error: '" ++ t ++ "' has no attribute '" ++ a ++ "'"
  | .name n => "Name error: variable '" ++ n ++ "' is not defined"
  | .noModule n => "Import error: module '" ++ n ++ "' is not available"
  | .malformed line m => "Syntax error at line " ++ toString line ++ ": " ++ m
  | other => other.message

def ErrorKind.chinese : ErrorKind → String
  | .zeroDivision => "数值错误：除数不能为零"
  | .type issue => "类型错误：" ++ issue.message
  | .index t => "索引错误：" ++ t ++ " 的索引超出范围"
  | .key k => "键错误：键 '" ++ k ++ "' 不存在"
  | .attribute t a => "属性错误：'" ++ t ++ "' 没有属性 '" ++ a ++ "'"
  | .name n => "名称错误：变量 '" ++ n ++ "' 未定义"
  | .noModule n => "导入错误：模块 '" ++ n ++ "' 不可用"
  | .malformed line m => "语法错误（第 " ++ toString line ++ " 行）：" ++ m
  | other => other.message

def ErrorKind.summary (locale : Locale) (kind : ErrorKind) : String :=
  match locale with
  | .en => kind.english
  | .zh => kind.chinese

end Flowstep.Script
