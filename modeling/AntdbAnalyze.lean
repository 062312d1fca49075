import AntdbAnalyze.Nodes
import AntdbAnalyze.Locking
import AntdbAnalyze.LockingClause
import AntdbAnalyze.OuterJoin.Classify
import AntdbAnalyze.Semantics
import AntdbAnalyze.Catalog
import AntdbAnalyze.OuterJoin.Pullup
import AntdbAnalyze.OuterJoin.FromAndWhere
import AntdbAnalyze.OuterJoin.Meaning
import AntdbAnalyze.OuterJoin.Conservation
import AntdbAnalyze.OuterJoin.NewJoins
import AntdbAnalyze.OuterJoin.Algebra
import AntdbAnalyze.OuterJoin.Forest
import AntdbAnalyze.OuterJoin.Placement
import AntdbAnalyze.OuterJoin.Entries
import AntdbAnalyze.OuterJoin.Reference
import AntdbAnalyze.Rownum.Rewrite
import AntdbAnalyze.Rownum.Limit
import AntdbAnalyze.ParseAnalyze
import AntdbAnalyze.Fixpoint
import AntdbAnalyze.SetOp.Tree
import AntdbAnalyze.SetOp.Columns
import AntdbAnalyze.SetOp.Recursion
import AntdbAnalyze.SetOp.Members
import AntdbAnalyze.Values
import AntdbAnalyze.Inherits
import AntdbAnalyze.Modify
import AntdbAnalyze.Select
import AntdbAnalyze.Statement
import AntdbAnalyze.Delete
