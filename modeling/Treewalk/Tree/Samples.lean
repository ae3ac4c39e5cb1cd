import Treewalk.Tree.Basic

/-! One sample of each kind of node. -/
namespace Treewalk.Tree

def samples : List Tree :=
  [ .int 4,
    .int (-4),
    .bool true,
    .null,
    .var "x",
    .print (.var "x"),
    .binary (.int 1) "+" (.bool false),
    .ifElse (.bool true) (.int 1) (.int 2),
    .ifElse (.bool true) (.int 1) .missing,
    .loop (.bool false) (.print (.int 1)),
    .seq (.int 1) (.int 2),
    .declare "x" (.int 5),
    .assign "x" (.int 6),
    .function ["a", "b"] (.binary (.var "a") "+" (.var "b")),
    .function [] .null,
    .call (.var "f") [.int 1, .var "y"] ]

end Treewalk.Tree
