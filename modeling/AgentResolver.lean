import AgentResolver.AgentIdentity
import AgentResolver.CommandLine.Arguments
import AgentResolver.CommandLine.Parse
import AgentResolver.CommandLine.Runs
import AgentResolver.Constants
import AgentResolver.Environment
import AgentResolver.Interaction.Agreement
import AgentResolver.Interaction.Among
import AgentResolver.Interaction.Machine
import AgentResolver.Interaction.Pool
import AgentResolver.Interaction.Process
import AgentResolver.Interaction.Run
import AgentResolver.JavaScript.AsciiLower
import AgentResolver.JavaScript.CaseData
import AgentResolver.JavaScript.CaseMapping
import AgentResolver.JavaScript.Doubles
import AgentResolver.JavaScript.JsonRoundTrip
import AgentResolver.JavaScript.JsonText
import AgentResolver.JavaScript.JsonTokens
import AgentResolver.JavaScript.Numerals
import AgentResolver.JavaScript.Strings
import AgentResolver.JavaScript.Values
import AgentResolver.Metadata.Aliases
import AgentResolver.Metadata.Bridge
import AgentResolver.Metadata.BridgeReference
import AgentResolver.Metadata.Diagnostics
import AgentResolver.Metadata.Isolation
import AgentResolver.Metadata.Notations
import AgentResolver.Metadata.Order
import AgentResolver.Metadata.Parse
import AgentResolver.Metadata.ParseLemmas
import AgentResolver.Metadata.PrintedIdentity
import AgentResolver.Metadata.Recognisers
import AgentResolver.Metadata.Republish
import AgentResolver.Metadata.Schema
import AgentResolver.Metadata.SchemaLemmas
import AgentResolver.Metadata.SchemaReference
import AgentResolver.Name
import AgentResolver.Name.Grammar
import AgentResolver.Name.LookupNames
import AgentResolver.Resolution.AnySource
import AgentResolver.Resolution.Async
import AgentResolver.Resolution.Calls
import AgentResolver.Resolution.Concurrent
import AgentResolver.Resolution.DefaultLookups
import AgentResolver.Resolution.DnsResolution
import AgentResolver.Resolution.FoundSkills
import AgentResolver.Resolution.HttpRequests
import AgentResolver.Resolution.MetadataSearch
import AgentResolver.Resolution.MockAgreement
import AgentResolver.Resolution.OpenCalls
import AgentResolver.Resolution.Options
import AgentResolver.Resolution.ResultObject
import AgentResolver.Resolution.Results
import AgentResolver.Resolution.Returns
import AgentResolver.Resolution.Segments
import AgentResolver.Resolution.TxtOnlySource
import AgentResolver.Resolution.WireRequests
import AgentResolver.Resolver
import AgentResolver.Sequence.Dealt
import AgentResolver.Sequence.Edits
import AgentResolver.Sequence.FirstSeen
import AgentResolver.Sequence.Search
import AgentResolver.Server
import AgentResolver.Service.Bodies
import AgentResolver.Service.Connections
import AgentResolver.Service.Handler
import AgentResolver.Service.Hosts
import AgentResolver.Service.Published
import AgentResolver.Service.Queries
import AgentResolver.Service.Replies
import AgentResolver.Skill.Client
import AgentResolver.Skill.Delivery
import AgentResolver.Skill.Discovery
import AgentResolver.Skill.Document
import AgentResolver.Skill.Fetch
import AgentResolver.Skill.FrontMatter
import AgentResolver.Skill.Headings
import AgentResolver.Skill.LineEndings
import AgentResolver.Skill.Lines
import AgentResolver.Skill.Paths
import AgentResolver.Skill.Pinning
import AgentResolver.Skill.Planning
import AgentResolver.Skill.RelativePaths
import AgentResolver.Skill.Request
import AgentResolver.Skill.RequestOptions
import AgentResolver.Skill.Requests
import AgentResolver.Skill.Settling
import AgentResolver.Upstream.DnsSource
import AgentResolver.Upstream.MockSource
import AgentResolver.Upstream.PartialFailures
import AgentResolver.Web.Forms
import AgentResolver.Web.Host
import AgentResolver.Web.HostNames
import AgentResolver.Web.HostRoundTrip
import AgentResolver.Web.HttpAgain
import AgentResolver.Web.HttpUrls
import AgentResolver.Web.Ipv6Text
import AgentResolver.Web.JsonBytes
import AgentResolver.Web.ParsedUrls
import AgentResolver.Web.Percent
import AgentResolver.Web.PlainUrls
import AgentResolver.Web.Reparse
import AgentResolver.Web.Scalars
import AgentResolver.Web.Url
import AgentResolver.Web.Utf8
import AgentResolver.Web.Utf8RoundTrip
