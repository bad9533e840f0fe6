import CorpusAgent.Http.Router
import CorpusAgent.Main
import CorpusAgent.Proofs.Filter.Outline
import CorpusAgent.Proofs.Filter.Reading
import CorpusAgent.Proofs.Retrieval.Iterations
import CorpusAgent.Proofs.Retrieval.Restriction
import CorpusAgent.Proofs.Storage.Alignment
import CorpusAgent.Proofs.Http.Failures
import CorpusAgent.Proofs.Filter.RoundTrip
import CorpusAgent.Proofs.Storage.Bindable
import CorpusAgent.Retrieval.Deployed
import CorpusAgent.Retrieval.Script
import CorpusAgent.Storage.Schema
import CorpusAgent.Proofs.Retrieval.Conclusion
import CorpusAgent.Proofs.Retrieval.Report
import CorpusAgent.Proofs.Retrieval.Offered
import CorpusAgent.Proofs.Retrieval.Answer
import CorpusAgent.Proofs.Number.Order
import CorpusAgent.Proofs.Passage.Assembly
import CorpusAgent.Proofs.Retrieval.Sources
import CorpusAgent.Proofs.Retrieval.Lockstep
import CorpusAgent.Proofs.Retrieval.Similarity
import CorpusAgent.Proofs.Filter.Containment
import CorpusAgent.Proofs.Retrieval.FilterControl
import CorpusAgent.Proofs.Filter.Negation
import CorpusAgent.Proofs.Retrieval.Limits
import CorpusAgent.Proofs.Retrieval.Advertised
import CorpusAgent.Proofs.Retrieval.Disclosure
import CorpusAgent.Proofs.Passage.Ranking
import CorpusAgent.Proofs.Filter.Blank
import CorpusAgent.Proofs.Retrieval.Counted
import CorpusAgent.Proofs.Storage.Embedding
import CorpusAgent.Proofs.Settings.Valid
import CorpusAgent.Proofs.Chat.Decoding
import CorpusAgent.Proofs.Embedding.Arrangement
import CorpusAgent.Proofs.Retrieval.Overrides
import CorpusAgent.Proofs.Filter.Placement
import CorpusAgent.Proofs.Http.Assembly
import CorpusAgent.Proofs.Retrieval.Replay
import CorpusAgent.Proofs.Filter.Traversal
import CorpusAgent.Proofs.Filter.Bounds
