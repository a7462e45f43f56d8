import RobotScript.Cursor
import RobotScript.Files.Tree
import RobotScript.Limits.Build
import RobotScript.Main
import RobotScript.Proofs.Encoding
import RobotScript.Session
import RobotScript.Proofs.Gaps
import RobotScript.Proofs.Lexemes
import RobotScript.Proofs.Tiling
import RobotScript.Proofs.Escapes
import RobotScript.Proofs.OpenStrings
import RobotScript.Proofs.StreamShape
import RobotScript.Proofs.Layout
import RobotScript.Proofs.Lookahead
import RobotScript.Proofs.Restart
import RobotScript.Proofs.Segments
import RobotScript.Proofs.History
import RobotScript.Proofs.Loading
import RobotScript.Proofs.KeywordLists
import RobotScript.Proofs.Population
import RobotScript.Proofs.LoadingEvents
import RobotScript.Proofs.Numbers
import RobotScript.Proofs.WholeWords
import RobotScript.Proofs.Reconstruction
import RobotScript.Proofs.Literals
import RobotScript.Proofs.Characters
import RobotScript.Proofs.Progress
import RobotScript.Proofs.LogLevels
import RobotScript.Proofs.Sessions
import RobotScript.Proofs.Transcript
import RobotScript.Proofs.TokenText
import RobotScript.Proofs.LongestWords
import RobotScript.Proofs.TokenTypes
import RobotScript.Proofs.GapItems
import RobotScript.Proofs.Comments
import RobotScript.Proofs.CommentMarks
import RobotScript.Proofs.Problems
import RobotScript.Proofs.Positions
import RobotScript.Proofs.Underlines
import RobotScript.Proofs.ShownProblems
import RobotScript.Proofs.PositionOrder
import RobotScript.Proofs.TextLines
import RobotScript.Proofs.Counts
import RobotScript.Proofs.Memories
import RobotScript.Proofs.CursorWalks
import RobotScript.Proofs.LongMessages
import RobotScript.Proofs.CommandLines
import RobotScript.Proofs.ConstantWords
import RobotScript.Proofs.FileNames
import RobotScript.Proofs.SourceOutcomes
