import MotifMatch.Main
import MotifMatch.Clock
import MotifMatch.Scenario.Register
import MotifMatch.Scripts
import MotifMatch.Showcase
import MotifMatch.Workbench.Graphs
import MotifMatch.Workbench.Judgements
import MotifMatch.Proofs.Epochs
import MotifMatch.Proofs.Bookkeeping
import MotifMatch.Proofs.Origins
import MotifMatch.Proofs.Inference
import MotifMatch.Proofs.MatchedQueries
import MotifMatch.Proofs.Presence
import MotifMatch.Proofs.TextKeys
import MotifMatch.Proofs.RaisedChances
import MotifMatch.Proofs.LabelLoops
import MotifMatch.Proofs.Instances
import MotifMatch.Proofs.MatchingExamples
import MotifMatch.Proofs.Versions
import MotifMatch.Proofs.SampleKeys
import MotifMatch.Proofs.MappingScores
